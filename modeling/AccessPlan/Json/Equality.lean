import AccessPlan.Json.Basic

/-!
# Equality of JSON values

Values are compared node by node, and how numbers compare is a parameter: equality of numbers makes
it equality of values, sameness of numbers makes it equality as JSON, in which integers never equal
doubles and zeros equal each other.

* `Json.agree`: the comparison. `agree_iff_eq`: over equality of numbers it decides equality.
* `Json.same`: equality as JSON.
-/

namespace AccessPlan.Json

mutual

/-- Compares two values node by node, numbers as told. -/
def agree (number : Number → Number → Bool) : Json → Json → Bool
  | .null, .null => true
  | .bool a, .bool b => a == b
  | .num a, .num b => number a b
  | .str a, .str b => a == b
  | .arr a, .arr b => agreeItems number a b
  | .obj a, .obj b => agreeMembers number a b
  | _, _ => false
termination_by structural a => a

/-- Compares two lists of values item by item. -/
def agreeItems (number : Number → Number → Bool) : List Json → List Json → Bool
  | [], [] => true
  | a :: as, b :: bs => a.agree number b && agreeItems number as bs
  | _, _ => false
termination_by structural as => as

/-- Compares the members of two objects in key order. -/
def agreeMembers (number : Number → Number → Bool) :
    {low high : Option String} → Entries Json low → Entries Json high → Bool
  | _, _, .nil, .nil => true
  | _, _, .cons key _ a as, .cons key' _ b bs =>
    key == key' && a.agree number b && agreeMembers number as bs
  | _, _, _, _ => false
termination_by structural _ _ as => as

end

/-- Whether two values are equal as JSON: an integer never equals a double, and the sign of zero
does not count. -/
def same (a b : Json) : Bool := a.agree Number.same b

/-- Whether two dictionaries hold values that are equal as JSON. -/
def sameDict (a b : Dict Json) : Bool := agreeMembers Number.same a b

section

variable {number : Number → Number → Bool}

mutual

theorem agree_refl (h : ∀ n, number n n = true) : (j : Json) → j.agree number j = true
  | .null => rfl
  | .bool _ => by simp [agree]
  | .num _ => by simp [agree, h]
  | .str _ => by simp [agree]
  | .arr items => by rw [agree]; exact agreeItems_refl h items
  | .obj members => by rw [agree]; exact agreeMembers_refl h members

theorem agreeItems_refl (h : ∀ n, number n n = true) :
    (items : List Json) → agreeItems number items items = true
  | [] => rfl
  | j :: rest => by simp [agreeItems, agree_refl h j, agreeItems_refl h rest]

theorem agreeMembers_refl (h : ∀ n, number n n = true) :
    {bound : Option String} → (members : Entries Json bound) →
      agreeMembers number members members = true
  | _, .nil => rfl
  | _, .cons _ _ j rest => by simp [agreeMembers, agree_refl h j, agreeMembers_refl h rest]

end

mutual

theorem eq_of_agree (h : ∀ m n, number m n = true → m = n) :
    (a b : Json) → a.agree number b = true → a = b
  | .null, b => by cases b <;> simp [agree]
  | .bool _, b => by cases b <;> simp [agree]
  | .num m, b => by
    cases b with
    | num n => exact fun hn => congrArg num (h m n hn)
    | _ => simp [agree]
  | .str _, b => by cases b <;> simp [agree]
  | .arr as, b => by
    cases b with
    | arr bs => exact fun has => congrArg arr (eq_of_agreeItems h as bs has)
    | _ => simp [agree]
  | .obj as, b => by
    cases b with
    | obj bs => exact fun has => congrArg obj (eq_of_agreeMembers h as bs has)
    | _ => simp [agree]

theorem eq_of_agreeItems (h : ∀ m n, number m n = true → m = n) :
    (as bs : List Json) → agreeItems number as bs = true → as = bs
  | [], bs => by cases bs <;> simp [agreeItems]
  | a :: as, bs => by
    cases bs with
    | nil => simp [agreeItems]
    | cons b bs =>
      simp only [agreeItems, Bool.and_eq_true]
      rintro ⟨ha, has⟩
      rw [eq_of_agree h a b ha, eq_of_agreeItems h as bs has]

theorem eq_of_agreeMembers (h : ∀ m n, number m n = true → m = n) :
    {bound : Option String} → (as bs : Entries Json bound) →
      agreeMembers number as bs = true → as = bs
  | _, .nil, bs => by cases bs <;> simp [agreeMembers]
  | _, .cons key _ a as, bs => by
    cases bs with
    | nil => simp [agreeMembers]
    | cons key' above' b bs =>
      simp only [agreeMembers, Bool.and_eq_true, beq_iff_eq]
      rintro ⟨⟨rfl, ha⟩, has⟩
      rw [eq_of_agree h a b ha, eq_of_agreeMembers h as bs has]

end

/-- Over equality of numbers, agreement is equality. -/
theorem agree_iff_eq (a b : Json) : a.agree (· == ·) b = true ↔ a = b :=
  ⟨eq_of_agree (by simp) a b, fun h => h ▸ agree_refl (by simp) a⟩

end

instance : DecidableEq Json := fun a b => decidable_of_iff _ (agree_iff_eq a b)

@[simp] theorem same_self (j : Json) : j.same j = true := agree_refl Number.same_self j

/-- Objects with one member agree if the keys are equal and the values agree. -/
theorem agree_single (number : Number → Number → Bool) (k l : String) (a b : Json) :
    (single k a).agree number (single l b) = (k == l && a.agree number b) := by
  simp [single, Dict.single, agree, agreeMembers]

end AccessPlan.Json
