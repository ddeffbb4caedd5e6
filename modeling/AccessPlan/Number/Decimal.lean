import AccessPlan.Number.Binary64

/-!
# Decimals and doubles

A decimal numeral is read as the double nearest to it, and a double is written with the fewest
digits that read back as it.

* `Decimal.toBinary64?`: the nearest double; a numeral beyond the finite doubles has none.
* `Binary64.shortest`: on each decimal grid, from one significant digit upwards, the two neighbours
  of the double are tried; the first grid with a neighbour that reads back wins, of two the nearer,
  of two equally near the even one.
* `DecimalLayout`: where positional digits end and exponents begin.
-/

namespace AccessPlan

/-- How many decimal digits a positive number has. -/
def digitCount (n : Nat) : Nat := (Nat.toDigits 10 n).length

/-- A power of ten. -/
def powerOfTen (exponent : Nat) : Nat := Nat.pow 10 exponent

/-- The number `significand * 10 ^ exponent`. -/
structure Decimal where
  significand : Nat
  exponent : Int
deriving DecidableEq

namespace Decimal

/-- The double nearest to a decimal, of two the even one, or nothing beyond the finite doubles. Far
outside the range of doubles the answer follows from the digit count alone. -/
def toBinary64? (negative : Bool) (d : Decimal) : Option Binary64 :=
  if d.significand = 0 then some (.zero negative)
  else
    let top := (digitCount d.significand : Int) + d.exponent
    if 310 < top then none
    else if top < -330 then some (.zero negative)
    else
      Binary64.nearest? negative (d.significand * powerOfTen d.exponent.toNat)
        (powerOfTen (-d.exponent).toNat)

/-- Moves trailing zeros of the significand into the exponent; the first number bounds how many. -/
def dropZeros : Nat → Decimal → Decimal
  | 0, d => d
  | fuel + 1, d =>
    if d.significand % 10 = 0 ∧ d.significand ≠ 0 then
      dropZeros fuel ⟨d.significand / 10, d.exponent + 1⟩
    else d

/-- The same number with no trailing zero in its significand. -/
def normalize (d : Decimal) : Decimal := dropZeros (digitCount d.significand) d

end Decimal

namespace Binary64

/-- The exponent of the leading decimal digit of the quotient of two positive numbers. -/
def leadingExponent (num den : Nat) : Int :=
  if den ≤ num then (digitCount (num / den) : Int) - 1 else -(digitCount ((den - 1) / num) : Int)

/-- Of the two neighbours of a quotient on the grid of `10 ^ exponent`, those that read back as the
double; of two the nearer, of two equally near the even one. -/
def onGrid? (x : Binary64) (num den : Nat) (exponent : Int) : Option Decimal :=
  let num := num * powerOfTen (-exponent).toNat
  let den := den * powerOfTen exponent.toNat
  let below := num / den
  let readsBack (significand : Nat) :=
    (Decimal.mk significand exponent).toBinary64? x.negative == some x
  match readsBack below, readsBack (below + 1) with
  | true, true => some ⟨roundHalfEven num den, exponent⟩
  | true, false => some ⟨below, exponent⟩
  | false, true => some ⟨below + 1, exponent⟩
  | false, false => none

/-- The absolute value with the fewest digits that read back as the double; seventeen always do. -/
def shortest (x : Binary64) : Decimal :=
  if x.rank.val = 0 then ⟨0, 0⟩
  else
    let num := x.units
    let den := 1 <<< 1074
    let lead := leadingExponent num den
    match (List.range 17).findSome? fun (more : Nat) => x.onGrid? num den (lead - more) with
    | some d => d.normalize
    | none => ⟨num * powerOfTen 1074 / den, -1074⟩

end Binary64

/-- Leading exponents from `least` to `greatest` are written positionally, with at least one
fractional digit; all others with an exponent that carries its sign. -/
structure DecimalLayout where
  least : Int
  greatest : Int

namespace DecimalLayout

/-- The text of a decimal. -/
def text (layout : DecimalLayout) (d : Decimal) : String :=
  let digits := Nat.toDigits 10 d.significand
  let point := (digits.length : Int) + d.exponent
  let lead := point - 1
  if layout.least ≤ lead ∧ lead ≤ layout.greatest then
    if 0 ≤ d.exponent then
      String.ofList (digits ++ List.replicate d.exponent.toNat '0') ++ ".0"
    else if 0 < point then
      String.ofList (digits.take point.toNat) ++ "." ++ String.ofList (digits.drop point.toNat)
    else "0." ++ String.ofList (List.replicate (-point).toNat '0' ++ digits)
  else
    let sign := if lead < 0 then "-" else "+"
    let fraction := if digits.length ≤ 1 then "" else "." ++ String.ofList (digits.drop 1)
    String.ofList (digits.take 1) ++ fraction ++ "e" ++ sign ++ toString lead.natAbs

end DecimalLayout

end AccessPlan
