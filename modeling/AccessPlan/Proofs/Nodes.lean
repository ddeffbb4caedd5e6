import AccessPlan.Log
import AccessPlan.Plan.Meaning

/-!
# The nodes of a plan

The nodes of a plan are its root and the operands of the conjunctions and disjunctions among its
nodes. An operand below any other operator is no node, and nothing is asked of it.

* `Operand.node?`: the node at a position.
* `Operand.Alive`, `Operand.Dead`: whether a node means something by itself.
* `alive_iff_obstacle?`: the nodes that have no filter are the dead ones.
* `Operand.induct_nodes`: induction from the nodes of a plan to its root.
* `holds_iff_of_obstacle?`: what a dead node says is left to the valuation.
* `Operand.AllAlive`: a plan without dead nodes. `AllAlive.of_mem`: so are the plans below it.
* `holds_congr_of_allAlive`: no valuation changes what such a plan says.
-/

namespace AccessPlan.Operand

/-- The operands that are nodes whenever the operand itself is one. -/
def branches : Operand → List Operand
  | .expression .and operands => operands
  | .expression .or operands => operands
  | _ => []

/-- The node at a position, which lists the indices on the way down from the root. -/
def node? : Operand → List Nat → Option Operand
  | o, [] => some o
  | o, index :: position => o.branches[index]?.bind fun child => child.node? position

/-- A node that means something: a conjunction, a disjunction, or the comparison of a variable with
a literal. -/
inductive Alive : Operand → Prop where
  | and (operands : List Operand) : Alive (.expression .and operands)
  | or (operands : List Operand) : Alive (.expression .or operands)
  | comparison (c : Comparison) (path : String) (value : Json) :
      Alive (.expression (.compare c) [.reference path, .literal value])

/-- A node that means nothing by itself. -/
def Dead (o : Operand) : Prop := ¬o.Alive

/-- Whether every node of the plan is alive. -/
def AllAlive (o : Operand) : Prop :=
  ∀ position node, o.node? position = some node → node.Alive

/-- Why a node has no filter, if it has none. -/
def obstacle? : Operand → Option Obstacle
  | .expression .and _ => none
  | .expression .or _ => none
  | .expression (.compare _) [.reference _, .literal _] => none
  | .expression (.compare _) _ => some .comparison
  | .expression (.other tag) _ => some (.operator tag)
  | .reference _ => some .leaf
  | .literal _ => some .leaf
  | .unrecognized _ => some .unrecognized

theorem alive_iff_obstacle? {o : Operand} : o.Alive ↔ o.obstacle? = none := by
  constructor
  · intro h
    cases h <;> rfl
  · intro h
    unfold obstacle? at h
    split at h
    · exact .and _
    · exact .or _
    · exact .comparison _ _ _
    all_goals cases h

instance : DecidablePred Alive := fun _ => decidable_of_iff _ alive_iff_obstacle?.symm

theorem dead_iff_obstacle? {o : Operand} : o.Dead ↔ ∃ obstacle, o.obstacle? = some obstacle := by
  rw [Dead, alive_iff_obstacle?, ← Option.isSome_iff_exists, Option.isSome_iff_ne_none]

/-- Induction over the nodes of a plan. A dead node is a case of its own, whatever its shape. -/
@[elab_as_elim]
theorem induct_nodes {motive : Operand → Prop}
    (and : ∀ operands, (∀ o ∈ operands, motive o) → motive (.expression .and operands))
    (or : ∀ operands, (∀ o ∈ operands, motive o) → motive (.expression .or operands))
    (comparison : ∀ c path value,
      motive (.expression (.compare c) [.reference path, .literal value]))
    (dead : ∀ o obstacle, o.obstacle? = some obstacle → motive o) (o : Operand) : motive o := by
  cases h : o.obstacle? with
  | some obstacle => exact dead o obstacle h
  | none =>
    cases alive_iff_obstacle?.2 h with
    | and os => exact and os fun p _ => induct_nodes and or comparison dead p
    | or os => exact or os fun p _ => induct_nodes and or comparison dead p
    | comparison c path value => exact comparison c path value
termination_by sizeOf o
decreasing_by
  all_goals
    have := List.sizeOf_lt_of_mem ‹_ ∈ _›
    simp only [expression.sizeOf_spec]
    omega

/-! ## Plans without dead nodes -/

theorem AllAlive.root {o : Operand} (h : o.AllAlive) : o.Alive := h [] o rfl

theorem AllAlive.obstacle?_eq_none {o : Operand} (h : o.AllAlive) : o.obstacle? = none :=
  alive_iff_obstacle?.1 h.root

theorem AllAlive.of_mem {o child : Operand} (h : o.AllAlive) (hc : child ∈ o.branches) :
    child.AllAlive := by
  intro position node hn
  obtain ⟨index, hi⟩ := List.getElem?_of_mem hc
  exact h (index :: position) node (by rw [node?, hi]; exact hn)

/-- A plan is alive throughout if its root is and so are the plans right below. -/
theorem AllAlive.of_branches {o : Operand} (ho : o.Alive)
    (h : ∀ child ∈ o.branches, child.AllAlive) : o.AllAlive := by
  intro position node hn
  cases position with
  | nil =>
    obtain rfl : o = node := Option.some.inj hn
    exact ho
  | cons index position =>
    rw [node?] at hn
    obtain ⟨child, hc, hn⟩ := Option.bind_eq_some_iff.1 hn
    exact h child (List.mem_of_getElem? hc) position node hn

section

variable {i : Interpretation} {value : String → Json}

/-- A dead node says what the valuation says at its place. -/
theorem holds_iff_of_obstacle? {o : Operand} {obstacle : Obstacle}
    (h : o.obstacle? = some obstacle) {d : Valuation} : o.Holds i value d ↔ d [] := by
  unfold obstacle? at h
  split at h
  · cases h
  · cases h
  · cases h
  · rename_i c operands hshape
    unfold Holds
    split
    · exact absurd rfl (hshape _ _)
    · exact Iff.rfl
  all_goals exact Iff.rfl

mutual

/-- No valuation changes what a plan without dead nodes says. -/
theorem holds_congr_of_allAlive (d e : Valuation) :
    (o : Operand) → o.AllAlive → (o.Holds i value d ↔ o.Holds i value e)
  | .expression .and os, h => by
    simp only [Holds]
    exact holdsAll_congr_of_allAlive d e 0 os fun o ho => h.of_mem ho
  | .expression .or os, h => by
    simp only [Holds]
    exact holdsAny_congr_of_allAlive d e 0 os fun o ho => h.of_mem ho
  | .expression (.compare _) os, h => by
    cases h.root
    exact Iff.rfl
  | .expression (.other _) _, h => nomatch h.root
  | .reference _, h => nomatch h.root
  | .literal _, h => nomatch h.root
  | .unrecognized _, h => nomatch h.root

theorem holdsAll_congr_of_allAlive (d e : Valuation) (index : Nat) :
    (os : List Operand) → (∀ o ∈ os, o.AllAlive) →
      (HoldsAll i value d index os ↔ HoldsAll i value e index os)
  | [], _ => Iff.rfl
  | o :: os, h => and_congr
    (holds_congr_of_allAlive (d.within index) (e.within index) o (h o List.mem_cons_self))
    (holdsAll_congr_of_allAlive d e (index + 1) os fun p hp => h p (List.mem_cons_of_mem o hp))

theorem holdsAny_congr_of_allAlive (d e : Valuation) (index : Nat) :
    (os : List Operand) → (∀ o ∈ os, o.AllAlive) →
      (HoldsAny i value d index os ↔ HoldsAny i value e index os)
  | [], _ => Iff.rfl
  | o :: os, h => or_congr
    (holds_congr_of_allAlive (d.within index) (e.within index) o (h o List.mem_cons_self))
    (holdsAny_congr_of_allAlive d e (index + 1) os fun p hp => h p (List.mem_cons_of_mem o hp))

end

end

end AccessPlan.Operand
