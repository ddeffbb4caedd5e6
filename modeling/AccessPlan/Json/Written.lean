import AccessPlan.Json.Text

/-!
# Values as they are written

A written value says in which order its parts are put out: records keep the order of their members
until it is known where they go. Put into a JSON value, the members fall into key order; put into
a text, they stay as they are.

* `Written.toJson`: the JSON value.
* `Written.text`: the compact text.
-/

namespace AccessPlan

/-- A value with the members of its records in the order in which they are written. -/
inductive Written where
  | json (value : Json)
  | list (items : List Written)
  | record (members : List (String × Written))

namespace Written

/-- A written string. -/
def str (value : String) : Written := .json (.str value)

/-- A record with one member. -/
def single (key : String) (value : Written) : Written := .record [(key, value)]

/-- A dictionary of values as it is written. -/
def dict (members : Dict Json) : Written := .json (.obj members)

/-- A member that is left out when there is nothing to write. -/
def optional {α : Type} (key : String) (write : α → Written) : Option α → List (String × Written)
  | none => []
  | some value => [(key, write value)]

mutual

/-- The JSON value of what is written. -/
def toJson : Written → Json
  | .json value => value
  | .list items => .arr (toItems items)
  | .record members => .ofMembers (toMembers members)
termination_by structural w => w

/-- The JSON values of the items of a list. -/
def toItems : List Written → List Json
  | [] => []
  | item :: rest => item.toJson :: toItems rest
termination_by structural items => items

/-- The JSON values of the members of a record. -/
def toMembers : List (String × Written) → List (String × Json)
  | [] => []
  | (key, value) :: rest => (key, value.toJson) :: toMembers rest
termination_by structural members => members

end

mutual

/-- The compact text of what is written. -/
def text : Written → String
  | .json value => value.text
  | .list items => Json.enclose "[" (textItems items) "]"
  | .record members => Json.enclose "\x7b" (textMembers members) "\x7d"
termination_by structural w => w

/-- The texts of the items of a list. -/
def textItems : List Written → List String
  | [] => []
  | item :: rest => item.text :: textItems rest
termination_by structural items => items

/-- The texts of the members of a record. -/
def textMembers : List (String × Written) → List String
  | [] => []
  | (key, value) :: rest => (Json.quote key ++ ":" ++ value.text) :: textMembers rest
termination_by structural members => members

end

theorem toItems_eq_map (items : List Written) : toItems items = items.map toJson := by
  induction items with
  | nil => rfl
  | cons item rest ih => rw [toItems, ih, List.map_cons]

theorem toJson_single (key : String) (value : Written) :
    (single key value).toJson = .single key value.toJson := rfl

theorem text_single (key : String) (value : Written) :
    (single key value).text =
      Json.enclose "\x7b" [Json.quote key ++ ":" ++ value.text] "\x7d" := rfl

end Written

end AccessPlan
