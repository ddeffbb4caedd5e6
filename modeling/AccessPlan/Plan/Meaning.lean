import AccessPlan.Filter.Meaning
import AccessPlan.Plan.Operand

/-!
# What plans say

A plan is read over an assignment, which gives each variable a JSON value. Conjunctions,
disjunctions and comparisons of a variable with a literal have a meaning. Every other node in their
place is dead: what it says is not known, and a valuation says it for each position.

* `Comparison.Holds`: whether a value compares with a literal as a plan means it.
* `Operand.Holds`: whether a plan is true.
* `Operand.Holds.mono`: a plan that is true stays true when more of its dead nodes are.
-/

namespace AccessPlan

/-- Whether a value compares with a literal. To be one of the items of a literal that is no array
is to be one of the literal alone. -/
def Comparison.Holds (i : Interpretation) (value : Json) : Comparison → Json → Prop
  | .relate relation, literal => i.relate relation value literal
  | .oneOf, .arr items => i.oneOf value items
  | .oneOf, scalar => i.oneOf value [scalar]

/-- Truth values of dead nodes, by the positions of their ancestors among their siblings and their
own, from the root downwards. -/
abbrev Valuation := List Nat → Prop

/-- The truth values of the dead nodes in the operand of an index. -/
def Valuation.within (dead : Valuation) (index : Nat) : Valuation :=
  fun position => dead (index :: position)

namespace Operand

mutual

/-- Whether a plan is true. -/
def Holds (i : Interpretation) (value : String → Json) (dead : Valuation) : Operand → Prop
  | .expression .and operands => HoldsAll i value dead 0 operands
  | .expression .or operands => HoldsAny i value dead 0 operands
  | .expression (.compare comparison) operands =>
    match operands with
    | [.reference path, .literal other] => comparison.Holds i (value path) other
    | _ => dead []
  | .expression (.other _) _ => dead []
  | .reference _ => dead []
  | .literal _ => dead []
  | .unrecognized _ => dead []
termination_by structural o => o

/-- Whether all operands from an index on are true. -/
def HoldsAll (i : Interpretation) (value : String → Json) (dead : Valuation) (index : Nat) :
    List Operand → Prop
  | [] => True
  | o :: rest => o.Holds i value (dead.within index) ∧ HoldsAll i value dead (index + 1) rest
termination_by structural os => os

/-- Whether one of the operands from an index on is true. -/
def HoldsAny (i : Interpretation) (value : String → Json) (dead : Valuation) (index : Nat) :
    List Operand → Prop
  | [] => False
  | o :: rest => o.Holds i value (dead.within index) ∨ HoldsAny i value dead (index + 1) rest
termination_by structural os => os

end

variable {i : Interpretation} {value : String → Json}

mutual

/-- A plan that is true stays true when more of its dead nodes are. -/
theorem Holds.mono {d e : Valuation} (h : ∀ position, d position → e position) :
    (o : Operand) → o.Holds i value d → o.Holds i value e
  | .expression .and os => by
    simp only [Holds]
    exact HoldsAll.mono h 0 os
  | .expression .or os => by
    simp only [Holds]
    exact HoldsAny.mono h 0 os
  | .expression (.compare _) os => by
    simp only [Holds]
    split
    · exact id
    · exact h []
  | .expression (.other _) _ => h []
  | .reference _ => h []
  | .literal _ => h []
  | .unrecognized _ => h []

theorem HoldsAll.mono {d e : Valuation} (h : ∀ position, d position → e position) (index : Nat) :
    (os : List Operand) → HoldsAll i value d index os → HoldsAll i value e index os
  | [] => id
  | o :: os => fun hos =>
    ⟨Holds.mono (fun position => h (index :: position)) o hos.1,
      HoldsAll.mono h (index + 1) os hos.2⟩

theorem HoldsAny.mono {d e : Valuation} (h : ∀ position, d position → e position) (index : Nat) :
    (os : List Operand) → HoldsAny i value d index os → HoldsAny i value e index os
  | [] => id
  | o :: os => fun hos => hos.imp
    (Holds.mono (fun position => h (index :: position)) o) (HoldsAny.mono h (index + 1) os)

end

end Operand

end AccessPlan
