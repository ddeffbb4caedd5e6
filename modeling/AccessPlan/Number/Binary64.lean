/-!
# Finite double-precision numbers

The finite doubles of one sign are numbered upwards from zero. The rank of a double says all about
its size: ranks below `2 ^ 52` count units of `2 ^ -1074`, and each further block of `2 ^ 52` ranks
counts units twice as large as the block before. A carry out of the significand is then the step to
the next rank, so rounding needs no case of its own for it.

* `Binary64.significand`, `Binary64.scale`: the absolute value is
  `significand * 2 ^ scale * 2 ^ -1074`.
* `Binary64.nearestRank`: the rank nearest to a quotient, of two the even one.
* `Binary64.same`: equality of numbers, which does not see the sign of zero.
-/

namespace AccessPlan

/-- The quotient rounded to the nearest whole number, of two the even one. -/
def roundHalfEven (num den : Nat) : Nat :=
  let whole := num / den
  let twice := 2 * (num % den)
  if twice < den ∨ (twice = den ∧ whole % 2 = 0) then whole else whole + 1

/-- A finite double: its sign, and the rank of its absolute value among the `2047 * 2 ^ 52` finite
doubles of that sign. -/
structure Binary64 where
  negative : Bool
  rank : Fin 0x7FF0000000000000
deriving DecidableEq

namespace Binary64

/-- The ranks in a block, `2 ^ 52`. -/
def block : Nat := 0x10000000000000

/-- The power of two of the unit that the rank counts, in units of the least double. -/
def scaleOf (rank : Nat) : Nat := rank / block - 1

/-- How many of these units make up the absolute value. -/
def significandOf (rank : Nat) : Nat := rank - scaleOf rank * block

/-- The power of two of the unit that a double counts. -/
def scale (x : Binary64) : Nat := scaleOf x.rank

/-- How many of its units a double counts. -/
def significand (x : Binary64) : Nat := significandOf x.rank

/-- The absolute value counted in units of `2 ^ -1074`. -/
def units (x : Binary64) : Nat := x.significand <<< x.scale

/-- Zero, positive or negative. -/
def zero (negative : Bool) : Binary64 := ⟨negative, ⟨0, by decide⟩⟩

/-- The rank nearest to a quotient, of two the even one. It counts on past the finite doubles. -/
def nearestRank (num den : Nat) : Nat :=
  let units := num <<< 1074
  let whole := units / den
  let scale := if whole < 2 * block then 0 else whole.log2 - 52
  scale * block + roundHalfEven units (den <<< scale)

/-- The double nearest to a quotient, unless that lies beyond the finite ones. -/
def nearest? (negative : Bool) (num den : Nat) : Option Binary64 :=
  if h : nearestRank num den < 0x7FF0000000000000 then some ⟨negative, ⟨_, h⟩⟩ else none

/-- Whether two doubles are the same number: the sign of zero does not count. -/
def same (x y : Binary64) : Bool :=
  x.rank == y.rank && (x.negative == y.negative || x.rank.val == 0)

theorem same_iff (x y : Binary64) :
    x.same y = true ↔ x = y ∨ (x.rank.val = 0 ∧ y.rank.val = 0) := by
  obtain ⟨nx, rx⟩ := x
  obtain ⟨ny, ry⟩ := y
  simp only [same, Bool.and_eq_true, Bool.or_eq_true, beq_iff_eq, Binary64.mk.injEq]
  constructor
  · rintro ⟨rfl, h | h⟩
    · exact .inl ⟨h, rfl⟩
    · exact .inr ⟨h, h⟩
  · rintro (⟨rfl, rfl⟩ | ⟨hx, hy⟩)
    · exact ⟨rfl, .inl rfl⟩
    · exact ⟨Fin.ext (hx.trans hy.symm), .inr hx⟩

@[simp] theorem same_self (x : Binary64) : x.same x = true := (same_iff x x).2 (.inl rfl)

end Binary64

end AccessPlan
