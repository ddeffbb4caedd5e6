import AccessPlan.Json.Equality
import AccessPlan.Plan.Operand

/-!
# Equality of operands

Operands are compared node by node. As with JSON values, how numbers compare is a parameter.

* `Operand.agree`: the comparison. `agree_iff_eq`: over equality of numbers it decides equality.
* `Operand.same`: equality with literals compared as JSON.
-/

namespace AccessPlan.Operand

mutual

/-- Compares two operands node by node, numbers as told. -/
def agree (number : Number → Number → Bool) : Operand → Operand → Bool
  | .expression p as, .expression q bs => p == q && agreeAll number as bs
  | .reference p, .reference q => p == q
  | .literal a, .literal b => a.agree number b
  | .unrecognized a, .unrecognized b => a.agree number b
  | _, _ => false
termination_by structural o => o

/-- Compares two lists of operands one by one. -/
def agreeAll (number : Number → Number → Bool) : List Operand → List Operand → Bool
  | [], [] => true
  | a :: as, b :: bs => a.agree number b && agreeAll number as bs
  | _, _ => false
termination_by structural os => os

end

/-- Whether two operands are equal, their literals compared as JSON. -/
def same (a b : Operand) : Bool := a.agree Number.same b

section

variable {number : Number → Number → Bool}

mutual

theorem agree_refl (h : ∀ n, number n n = true) : (o : Operand) → o.agree number o = true
  | .expression _ os => by simp [agree, agreeAll_refl h os]
  | .reference _ => by simp [agree]
  | .literal value => by simp [agree, Json.agree_refl h value]
  | .unrecognized raw => by simp [agree, Json.agree_refl h raw]

theorem agreeAll_refl (h : ∀ n, number n n = true) :
    (os : List Operand) → agreeAll number os os = true
  | [] => rfl
  | o :: os => by simp [agreeAll, agree_refl h o, agreeAll_refl h os]

end

mutual

theorem eq_of_agree (h : ∀ m n, number m n = true → m = n) :
    (a b : Operand) → a.agree number b = true → a = b
  | .expression _ as, b => by
    cases b with
    | expression _ bs =>
      simp only [agree, Bool.and_eq_true, beq_iff_eq]
      rintro ⟨rfl, has⟩
      rw [eq_of_agreeAll h as bs has]
    | _ => simp [agree]
  | .reference _, b => by cases b <;> simp [agree]
  | .literal value, b => by
    cases b with
    | literal other => exact fun hv => congrArg literal (Json.eq_of_agree h value other hv)
    | _ => simp [agree]
  | .unrecognized raw, b => by
    cases b with
    | unrecognized other => exact fun hr => congrArg unrecognized (Json.eq_of_agree h raw other hr)
    | _ => simp [agree]

theorem eq_of_agreeAll (h : ∀ m n, number m n = true → m = n) :
    (as bs : List Operand) → agreeAll number as bs = true → as = bs
  | [], bs => by cases bs <;> simp [agreeAll]
  | a :: as, bs => by
    cases bs with
    | nil => simp [agreeAll]
    | cons b bs =>
      simp only [agreeAll, Bool.and_eq_true]
      rintro ⟨ha, has⟩
      rw [eq_of_agree h a b ha, eq_of_agreeAll h as bs has]

end

/-- Over equality of numbers, agreement is equality. -/
theorem agree_iff_eq (a b : Operand) : a.agree (· == ·) b = true ↔ a = b :=
  ⟨eq_of_agree (by simp) a b, fun h => h ▸ agree_refl (by simp) a⟩

end

instance : DecidableEq Operand := fun a b => decidable_of_iff _ (agree_iff_eq a b)

@[simp] theorem same_self (o : Operand) : o.same o = true := agree_refl Number.same_self o

end AccessPlan.Operand
