import AccessPlan.Filter.Basic

/-!
# What filters admit

A filter is read over a row, which gives each field a JSON value. What the relations and membership
mean is left to an interpretation, as it is left to the data store.

* `Filter.Admits`: whether a filter admits a row.
* `admits_and`: the conjunction of two filters admits the rows that both admit.
-/

namespace AccessPlan

/-- What a data store makes of the comparisons. -/
structure Interpretation where
  /-- Whether a value stands in a relation to a literal. -/
  relate : Relation → Json → Json → Prop
  /-- Whether a value is one of the candidates. -/
  oneOf : Json → List Json → Prop

/-- Whether a value meets a condition. -/
def Condition.Holds (i : Interpretation) (value : Json) : Condition → Prop
  | .relate relation literal => i.relate relation value literal
  | .oneOf candidates => i.oneOf value candidates

namespace Filter

mutual

/-- Whether a filter admits a row. -/
def Admits (i : Interpretation) (row : String → Json) : Filter → Prop
  | .allOf filters => AdmitsAll i row filters
  | .anyOf filters => AdmitsAny i row filters
  | .field name condition => condition.Holds i (row name)
  | .empty => True
termination_by structural f => f

/-- Whether all of the filters admit a row. -/
def AdmitsAll (i : Interpretation) (row : String → Json) : List Filter → Prop
  | [] => True
  | f :: rest => f.Admits i row ∧ AdmitsAll i row rest
termination_by structural fs => fs

/-- Whether one of the filters admits a row. -/
def AdmitsAny (i : Interpretation) (row : String → Json) : List Filter → Prop
  | [] => False
  | f :: rest => f.Admits i row ∨ AdmitsAny i row rest
termination_by structural fs => fs

end

variable {i : Interpretation} {row : String → Json}

@[simp] theorem admits_empty : Filter.empty.Admits i row ↔ True := Iff.rfl

/-- The conjunction of two filters admits the rows that both admit. -/
theorem admits_and (f g : Filter) : (f.and g).Admits i row ↔ f.Admits i row ∧ g.Admits i row := by
  cases f <;> cases g <;> simp [Filter.and, Admits, AdmitsAll]

end Filter

end AccessPlan
