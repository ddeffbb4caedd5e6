import AccessPlan.Dict.Basic
import AccessPlan.Number.Basic

/-!
# JSON values

A JSON value is a tree whose objects are dictionaries in key order: the order of members does not
exist and no key occurs twice.

* `Json.single`, `Json.ofMembers`: objects from their members.
* `Json.member?`: a member of an object.
-/

namespace AccessPlan

/-- A JSON value. -/
inductive Json where
  | null
  | bool (value : Bool)
  | num (value : Number)
  | str (value : String)
  | arr (items : List Json)
  | obj (members : Entries Json none)
deriving Inhabited

namespace Json

/-- The object with one member. -/
def single (key : String) (value : Json) : Json := .obj (Dict.single key value)

/-- The object of the pairs; of several with one key the last one stays. -/
def ofMembers (pairs : List (String × Json)) : Json := .obj (Dict.ofList pairs)

/-- A member of an object. -/
def member? (key : String) : Json → Option Json
  | .obj members => members.get? key
  | _ => none

end Json

end AccessPlan
