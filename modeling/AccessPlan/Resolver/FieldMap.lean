import AccessPlan.Dict.Lemmas
import AccessPlan.Resolver.Basic

/-!
# Field maps

A field map names the fields of some paths. A path without a field is its own field, unless the map
is strict.

* `FieldMap.resolve`: the answer of a map.
* `get?_insert`, `get?_ofList`: what a map holds after a write, and after many.
* `FieldMap.ext_get?`: two maps are equal if they are equally strict and hold the same fields.
-/

namespace AccessPlan

/-- The fields of some paths; a strict map knows no others. -/
structure FieldMap where
  fields : Dict String
  strict : Bool
deriving DecidableEq

namespace FieldMap

/-- The map of no path. -/
def empty : FieldMap := ⟨.empty, false⟩

/-- The map of the pairs; of several with one path the last one stays. -/
def ofList (pairs : List (String × String)) : FieldMap := ⟨.ofList pairs, false⟩

/-- The field of a path. -/
def get? (m : FieldMap) (path : String) : Option String := m.fields.get? path

/-- Writes the field of a path. -/
def insert (m : FieldMap) (path field : String) : FieldMap :=
  { m with fields := m.fields.insert path field }

/-- Writes the field of a path, and gives the one that it had before. -/
def getThenInsert (m : FieldMap) (path field : String) : Option String × FieldMap :=
  (m.get? path, m.insert path field)

/-- The map made strict. -/
def toStrict (m : FieldMap) : FieldMap := { m with strict := true }

/-- The number of paths. -/
def size (m : FieldMap) : Nat := m.fields.size

/-- Whether the map names no field. -/
def isEmpty (m : FieldMap) : Bool := m.fields.isEmpty

/-- The field of a path; one without a field is its own, unless the map is strict. -/
def resolve (m : FieldMap) (path : String) : Except ResolveError String :=
  match m.get? path with
  | some field => .ok field
  | none => if m.strict then .error (.unmapped path) else .ok path

/-- The map as a resolver. -/
def resolver {σ : Type} (m : FieldMap) : Resolver σ := .ofFunction m.resolve

theorem get?_insert (m : FieldMap) (path field q : String) :
    (m.insert path field).get? q = if q = path then some field else m.get? q :=
  Dict.get?_insert m.fields path field q

theorem get?_ofList (pairs : List (String × String)) (path : String) :
    (ofList pairs).get? path = pairs.reverse.lookup path :=
  Dict.get?_ofList pairs path

/-- Maps that are equally strict and hold the same fields are equal. -/
theorem ext_get? {m n : FieldMap} (hs : m.strict = n.strict)
    (h : ∀ path, m.get? path = n.get? path) : m = n := by
  obtain ⟨f, s⟩ := m
  obtain ⟨g, t⟩ := n
  obtain rfl : s = t := hs
  obtain rfl : f = g := Entries.ext_get? h
  rfl

end FieldMap

end AccessPlan
