import AccessPlan.Filter.Basic
import AccessPlan.Json.Equality

/-!
# Equality of filters

Filters are compared node by node. As with JSON values, how numbers compare is a parameter.

* `Filter.agree`: the comparison. `agree_iff_eq`: over equality of numbers it decides equality.
* `Filter.same`: equality with literals compared as JSON.
-/

namespace AccessPlan

namespace Condition

/-- Compares two conditions, numbers as told. -/
def agree (number : Number → Number → Bool) : Condition → Condition → Bool
  | .relate r a, .relate s b => r == s && a.agree number b
  | .oneOf as, .oneOf bs => Json.agreeItems number as bs
  | _, _ => false

/-- Whether two conditions are equal, their literals compared as JSON. -/
def same (c d : Condition) : Bool := c.agree Number.same d

/-- Conditions agree if they make the same comparison and agree in what they compare with. -/
theorem agree_eq (number : Number → Number → Bool) (c d : Condition) :
    c.agree number d =
      (c.comparison == d.comparison && c.operand.agree number d.operand) := by
  cases c with
  | relate r a =>
    cases d with
    | relate s b =>
      rw [comparison, comparison, Comparison.relate_beq]
      rfl
    | oneOf bs => rfl
  | oneOf as =>
    cases d with
    | relate s b => rfl
    | oneOf bs => rfl

theorem agree_refl {number : Number → Number → Bool} (h : ∀ n, number n n = true) (c : Condition) :
    c.agree number c = true := by
  cases c with
  | relate r a => simp [agree, Json.agree_refl h]
  | oneOf as => simp [agree, Json.agreeItems_refl h]

theorem eq_of_agree {number : Number → Number → Bool} (h : ∀ m n, number m n = true → m = n)
    {c d : Condition} (hc : c.agree number d = true) : c = d := by
  cases c with
  | relate r a =>
    cases d with
    | relate s b =>
      simp only [agree, Bool.and_eq_true, beq_iff_eq] at hc
      obtain ⟨rfl, hab⟩ := hc
      rw [Json.eq_of_agree h a b hab]
    | oneOf bs => cases hc
  | oneOf as =>
    cases d with
    | relate s b => cases hc
    | oneOf bs => exact congrArg oneOf (Json.eq_of_agreeItems h as bs hc)

/-- Over equality of numbers, agreement is equality. -/
theorem agree_iff_eq (c d : Condition) : c.agree (· == ·) d = true ↔ c = d :=
  ⟨eq_of_agree (by simp), fun h => h ▸ agree_refl (by simp) c⟩

end Condition

namespace Filter

mutual

/-- Compares two filters node by node, numbers as told. -/
def agree (number : Number → Number → Bool) : Filter → Filter → Bool
  | .allOf fs, .allOf gs => agreeAll number fs gs
  | .anyOf fs, .anyOf gs => agreeAll number fs gs
  | .field n c, .field m d => n == m && c.agree number d
  | .empty, .empty => true
  | _, _ => false
termination_by structural f => f

/-- Compares two lists of filters one by one. -/
def agreeAll (number : Number → Number → Bool) : List Filter → List Filter → Bool
  | [], [] => true
  | f :: fs, g :: gs => f.agree number g && agreeAll number fs gs
  | _, _ => false
termination_by structural fs => fs

end

/-- Whether two filters are equal, their literals compared as JSON. -/
def same (f g : Filter) : Bool := f.agree Number.same g

section

variable {number : Number → Number → Bool}

mutual

theorem agree_refl (h : ∀ n, number n n = true) : (f : Filter) → f.agree number f = true
  | .allOf fs => by rw [agree]; exact agreeAll_refl h fs
  | .anyOf fs => by rw [agree]; exact agreeAll_refl h fs
  | .field _ c => by simp [agree, Condition.agree_refl h c]
  | .empty => rfl

theorem agreeAll_refl (h : ∀ n, number n n = true) :
    (fs : List Filter) → agreeAll number fs fs = true
  | [] => rfl
  | f :: fs => by simp [agreeAll, agree_refl h f, agreeAll_refl h fs]

end

mutual

theorem eq_of_agree (h : ∀ m n, number m n = true → m = n) :
    (f g : Filter) → f.agree number g = true → f = g
  | .allOf fs, g => by
    cases g with
    | allOf gs => exact fun hfs => congrArg allOf (eq_of_agreeAll h fs gs hfs)
    | _ => simp [agree]
  | .anyOf fs, g => by
    cases g with
    | anyOf gs => exact fun hfs => congrArg anyOf (eq_of_agreeAll h fs gs hfs)
    | _ => simp [agree]
  | .field _ c, g => by
    cases g with
    | field _ d =>
      simp only [agree, Bool.and_eq_true, beq_iff_eq]
      rintro ⟨rfl, hcd⟩
      rw [Condition.eq_of_agree h hcd]
    | _ => simp [agree]
  | .empty, g => by cases g <;> simp [agree]

theorem eq_of_agreeAll (h : ∀ m n, number m n = true → m = n) :
    (fs gs : List Filter) → agreeAll number fs gs = true → fs = gs
  | [], gs => by cases gs <;> simp [agreeAll]
  | f :: fs, gs => by
    cases gs with
    | nil => simp [agreeAll]
    | cons g gs =>
      simp only [agreeAll, Bool.and_eq_true]
      rintro ⟨hf, hfs⟩
      rw [eq_of_agree h f g hf, eq_of_agreeAll h fs gs hfs]

end

/-- Over equality of numbers, agreement is equality. -/
theorem agree_iff_eq (f g : Filter) : f.agree (· == ·) g = true ↔ f = g :=
  ⟨eq_of_agree (by simp) f g, fun h => h ▸ agree_refl (by simp) f⟩

end

instance : DecidableEq Filter := fun f g => decidable_of_iff _ (agree_iff_eq f g)

@[simp] theorem same_self (f : Filter) : f.same f = true := agree_refl Number.same_self f

end Filter

end AccessPlan
