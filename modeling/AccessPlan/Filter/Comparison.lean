/-!
# Comparisons

The ways in which a plan compares a variable with a literal, and a filter a field: six relations to
one literal, and membership in a list of candidates. A plan and a filter name them differently.

* `Comparison.tag`: the name in a plan. `Comparison.key`: the name in a filter.
* `key_injective`: the names in a filter tell the comparisons apart.
-/

namespace AccessPlan

/-- A relation between a field and a scalar. -/
inductive Relation where
  | equal
  | differ
  | less
  | greater
  | atMost
  | atLeast
deriving DecidableEq, Repr

namespace Relation

/-- The operator tag of the relation in a plan. -/
def tag : Relation → String
  | equal => "eq"
  | differ => "ne"
  | less => "lt"
  | greater => "gt"
  | atMost => "lte"
  | atLeast => "gte"

/-- The key of the relation in a filter. -/
def key : Relation → String
  | equal => "equals"
  | differ => "not"
  | less => "lt"
  | greater => "gt"
  | atMost => "lte"
  | atLeast => "gte"

theorem key_injective {r s : Relation} (h : r.key = s.key) : r = s := by
  cases r <;> cases s <;> simp_all [key]

end Relation

/-- A comparison of a field with a literal. -/
inductive Comparison where
  /-- The field stands in a relation to the literal. -/
  | relate (relation : Relation)
  /-- The field is one of the items of the literal. -/
  | oneOf
deriving DecidableEq, Repr

namespace Comparison

/-- The operator tag of the comparison in a plan. -/
def tag : Comparison → String
  | relate relation => relation.tag
  | oneOf => "in"

/-- The key of the comparison in a filter. -/
def key : Comparison → String
  | relate relation => relation.key
  | oneOf => "in"

theorem key_injective {c d : Comparison} (h : c.key = d.key) : c = d := by
  cases c with
  | relate r =>
    cases d with
    | relate s => exact congrArg relate (Relation.key_injective h)
    | oneOf => cases r <;> simp [key, Relation.key] at h
  | oneOf =>
    cases d with
    | relate s => cases s <;> simp [key, Relation.key] at h
    | oneOf => rfl

theorem key_beq (c d : Comparison) : (c.key == d.key) = (c == d) := by
  rw [Bool.eq_iff_iff, beq_iff_eq, beq_iff_eq]
  exact ⟨key_injective, congrArg key⟩

theorem relate_beq (r s : Relation) : (relate r == relate s) = (r == s) := by
  rw [Bool.eq_iff_iff, beq_iff_eq, beq_iff_eq, relate.injEq]

end Comparison

end AccessPlan
