import AccessPlan.Filter.Comparison

/-!
# Operators

The operators of a plan: the two conjunctions, the comparisons, and any other tag, which is kept as
it came.

* `Operator.ofTag`: the operator of a tag. `Operator.tag`: its tag.
* `tag_ofTag`: reading a tag loses nothing.
* `ofTag_tag_iff`: an operator is the one its tag is read as unless a known tag is kept as another.
-/

namespace AccessPlan

/-- An operator of a plan. -/
inductive Operator where
  | and
  | or
  | compare (comparison : Comparison)
  | other (tag : String)
deriving DecidableEq, Repr

namespace Operator

/-- The tag of the operator. -/
def tag : Operator → String
  | .and => "and"
  | .or => "or"
  | .compare comparison => comparison.tag
  | .other tag => tag

/-- The operators that have a tag of their own. -/
def known : List Operator :=
  [.and, .or] ++
    [Comparison.relate .equal, .relate .differ, .relate .less, .relate .greater, .relate .atMost,
      .relate .atLeast, .oneOf].map .compare

/-- The operator of a tag; an unknown tag is kept. -/
def ofTag (tag : String) : Operator :=
  (known.find? fun operator => operator.tag = tag).getD (.other tag)

theorem tag_ofTag (tag : String) : (ofTag tag).tag = tag := by
  rw [ofTag]
  cases h : known.find? fun operator => operator.tag = tag with
  | none => rfl
  | some operator => simpa using List.find?_some h

theorem ofTag_tag_of_mem {operator : Operator} (h : operator ∈ known) :
    ofTag operator.tag = operator := by
  revert operator
  decide

theorem mem_known {operator : Operator} (h : ∀ tag, operator ≠ .other tag) : operator ∈ known := by
  cases operator with
  | compare comparison =>
    cases comparison with
    | relate relation => cases relation <;> decide
    | oneOf => decide
  | other tag => exact absurd rfl (h tag)
  | and => decide
  | or => decide

/-- An operator is read back from its tag unless it keeps a known tag as another one. -/
theorem ofTag_tag_iff (operator : Operator) :
    ofTag operator.tag = operator ↔
      ∀ tag, operator = .other tag → tag ∉ known.map Operator.tag := by
  constructor
  · rintro h tag rfl hmem
    obtain ⟨operator, hk, ht⟩ := List.mem_map.1 hmem
    -- the tag is read as the known operator that has it, which is not this one
    have hself : ofTag tag = operator := ht ▸ ofTag_tag_of_mem hk
    rw [show (Operator.other tag).tag = tag from rfl, hself] at h
    subst h
    simp [known] at hk
  · intro h
    by_cases ho : ∃ tag, operator = .other tag
    · obtain ⟨tag, rfl⟩ := ho
      have hnone : (known.find? fun operator => operator.tag = tag) = none := by
        rw [List.find?_eq_none]
        intro operator hm ht
        exact h tag rfl (List.mem_map.2 ⟨operator, hm, by simpa using ht⟩)
      rw [show (Operator.other tag).tag = tag from rfl, ofTag, hnone]
      rfl
    · exact ofTag_tag_of_mem (mem_known fun tag ht => ho ⟨tag, ht⟩)

end Operator

end AccessPlan
