import AccessPlan.Filter.Comparison
import AccessPlan.Json.Written

/-!
# Filters

A filter says which rows of a data store are admitted: a conjunction or disjunction of filters, a
condition on one field, or no constraint at all.

* `Filter.and`: the conjunction of two filters, in which an empty side leaves no trace.
* `Filter.fieldNames`: the fields in the order of the leaves, each as often as it occurs.
  `fieldNames_and`: a conjunction has those of both sides.
* `Filter.toJson`: the JSON object of a filter. `Filter.written`: the same object as it is put out
  piece by piece.
-/

namespace AccessPlan

/-- What a filter asks of one field. -/
inductive Condition where
  /-- The field stands in a relation to a literal. -/
  | relate (relation : Relation) (literal : Json)
  /-- The field is one of the candidates. -/
  | oneOf (candidates : List Json)

namespace Condition

/-- The comparison that the condition makes. -/
def comparison : Condition → Comparison
  | .relate relation _ => .relate relation
  | .oneOf _ => .oneOf

/-- The key under which the condition stands. -/
def key (c : Condition) : String := c.comparison.key

/-- What stands under the key. -/
def operand : Condition → Json
  | .relate _ literal => literal
  | .oneOf candidates => .arr candidates

/-- The condition as an object with one member. -/
def toJson (c : Condition) : Json := .single c.key c.operand

/-- The condition as it is put out. -/
def written (c : Condition) : Written :=
  match c with
  | .relate _ literal => .single c.key (.json literal)
  | .oneOf candidates => .single c.key (.list (candidates.map .json))

end Condition

/-- A filter over the rows of a data store. -/
inductive Filter where
  /-- All of them must admit the row. -/
  | allOf (filters : List Filter)
  /-- One of them must admit the row. -/
  | anyOf (filters : List Filter)
  /-- A condition on one field. -/
  | field (name : String) (condition : Condition)
  /-- No constraint. -/
  | empty
deriving Inhabited

namespace Filter

/-- Whether the filter is the one without constraint. -/
def isEmpty : Filter → Bool
  | .empty => true
  | _ => false

/-- Both filters at once. An empty side leaves no trace. -/
def and : Filter → Filter → Filter
  | .empty, other => other
  | this, .empty => this
  | this, other => .allOf [this, other]

mutual

/-- The names of the fields, depth first, each as often as it occurs. -/
def fieldNames : Filter → List String
  | .allOf filters => fieldNamesOf filters
  | .anyOf filters => fieldNamesOf filters
  | .field name _ => [name]
  | .empty => []
termination_by structural f => f

/-- The names of the fields of several filters. -/
def fieldNamesOf : List Filter → List String
  | [] => []
  | f :: rest => f.fieldNames ++ fieldNamesOf rest
termination_by structural fs => fs

end

/-! ## Rendering -/

mutual

/-- The JSON object of a filter. -/
def toJson : Filter → Json
  | .allOf filters => .single "AND" (.arr (toJsonAll filters))
  | .anyOf filters => .single "OR" (.arr (toJsonAll filters))
  | .field name condition => .single name condition.toJson
  | .empty => .obj .nil
termination_by structural f => f

/-- The JSON objects of several filters. -/
def toJsonAll : List Filter → List Json
  | [] => []
  | f :: rest => f.toJson :: toJsonAll rest
termination_by structural fs => fs

end

mutual

/-- A filter as it is put out. -/
def written : Filter → Written
  | .allOf filters => .single "AND" (.list (writtenAll filters))
  | .anyOf filters => .single "OR" (.list (writtenAll filters))
  | .field name condition => .single name condition.written
  | .empty => .record []
termination_by structural f => f

/-- Several filters as they are put out. -/
def writtenAll : List Filter → List Written
  | [] => []
  | f :: rest => f.written :: writtenAll rest
termination_by structural fs => fs

end

@[simp] theorem and_empty (f : Filter) : f.and .empty = f := by cases f <;> rfl

@[simp] theorem empty_and (f : Filter) : Filter.empty.and f = f := rfl

theorem and_of_ne_empty {f g : Filter} (hf : f ≠ .empty) (hg : g ≠ .empty) :
    f.and g = .allOf [f, g] := by
  cases f with
  | empty => exact absurd rfl hf
  | _ =>
    cases g with
    | empty => exact absurd rfl hg
    | _ => rfl

theorem and_eq_empty_iff {f g : Filter} : f.and g = .empty ↔ f = .empty ∧ g = .empty := by
  cases f <;> cases g <;> simp [and]

theorem fieldNames_and (f g : Filter) : (f.and g).fieldNames = f.fieldNames ++ g.fieldNames := by
  cases f <;> cases g <;> simp [and, fieldNames, fieldNamesOf]

theorem isEmpty_iff {f : Filter} : f.isEmpty = true ↔ f = .empty := by
  cases f <;> simp [isEmpty]

end Filter

end AccessPlan
