import AccessPlan.Number.Decimal

/-!
# Numbers

A number is an integer of at most 64 bits or a finite double. The two kinds never meet: `1` and
`1.0` are different numbers. A numeral denotes an integer when it has neither fraction nor exponent
and fits; otherwise it denotes the nearest double. `-0` is a double, as no integer is negative zero.

* `Numeral.number?`: the number that a numeral denotes; none if it is too large for a double.
* `Number.text`: integers in decimal, doubles with the fewest digits that read back.
* `Number.same`: equality that keeps the two kinds apart and does not see the sign of zero.
-/

namespace AccessPlan

/-- Whether an integer fits in 64 bits, signed or unsigned: it is at least `-2 ^ 63` and below
`2 ^ 64`. -/
abbrev FitsInteger (value : Int) : Prop := -0x8000000000000000 ≤ value ∧ value < 0x10000000000000000

/-- An integer of at most 64 bits or a finite double. -/
inductive Number where
  | int (value : Int) (fits : FitsInteger value)
  | double (value : Binary64)
deriving DecidableEq

/-- A number as it is spelt: the digits before and after the point, and the power of ten. -/
structure Numeral where
  negative : Bool
  whole : List Char
  fraction : Option (List Char)
  exponent : Option Int

namespace Numeral

/-- The value of a list of decimal digits. -/
def digitsValue (digits : List Char) : Nat :=
  digits.foldl (fun value digit => 10 * value + (digit.toNat - '0'.toNat)) 0

/-- The absolute value of a numeral. -/
def decimal (n : Numeral) : Decimal :=
  let fraction := n.fraction.getD []
  ⟨digitsValue (n.whole ++ fraction), n.exponent.getD 0 - fraction.length⟩

/-- The integer that a numeral denotes, if it has neither fraction nor exponent. -/
def integer? (n : Numeral) : Option Int :=
  match n.fraction, n.exponent with
  | none, none =>
    let value := digitsValue n.whole
    if n.negative then if value = 0 then none else some (-(value : Int)) else some value
  | _, _ => none

/-- The number that a numeral denotes, or nothing if it is beyond the finite doubles. -/
def number? (n : Numeral) : Option Number :=
  match n.integer? with
  | some value =>
    if fits : FitsInteger value then some (.int value fits)
    else (n.decimal.toBinary64? n.negative).map .double
  | none => (n.decimal.toBinary64? n.negative).map .double

end Numeral

namespace Number

/-- A natural number below `2 ^ 64` as a number. -/
def ofNat? (n : Nat) : Option Number :=
  if fits : FitsInteger n then some (.int n fits) else none

/-- Positional digits reach from `0.00001` to sixteen digits before the point. -/
def layout : DecimalLayout := ⟨-5, 15⟩

/-- The text of a double. -/
def doubleText (x : Binary64) : String :=
  (if x.negative then "-" else "") ++ layout.text x.shortest

/-- The text of a number. -/
def text : Number → String
  | .int value _ => toString value
  | .double value => doubleText value

/-- Whether two numbers are of one kind and equal. -/
def same : Number → Number → Bool
  | .int a _, .int b _ => a == b
  | .double a, .double b => a.same b
  | _, _ => false

@[simp] theorem same_self (n : Number) : n.same n = true := by
  cases n <;> simp [same]

end Number

end AccessPlan
