import AccessPlan.Proofs.Uses
import Mathlib.Data.List.Forall2

/-!
# What dead nodes hold

A dead node is left to its treatment without a look at what it holds. Only its sort matters: the tag
of an operator without counterpart, a leaf, a value that is no operand, or a comparison of a wrong
shape.

* `Operand.SameSort`: dead nodes of one sort.
* `Operand.Indistinct`: plans that differ only in what their dead nodes hold.
* `Operand.compile_eq_of_indistinct`: over every resolver they are compiled alike.
* `Operand.dead_contents_ignored`: the same in what a run gives, logs, asks for and leaves.
-/

namespace AccessPlan

namespace Operand

/-- A variable or a literal. -/
inductive Leaf : Operand → Prop where
  | reference (path : String) : Leaf (.reference path)
  | literal (value : Json) : Leaf (.literal value)

/-- Dead nodes of one sort. -/
inductive SameSort : Operand → Operand → Prop where
  /-- The operators have no counterpart and one tag. Their operands may be any. -/
  | unsupported (tag : String) (operands others : List Operand) :
      SameSort (.expression (.other tag) operands) (.expression (.other tag) others)
  | leaves {o p : Operand} (ho : o.Leaf) (hp : p.Leaf) : SameSort o p
  | unrecognized (raw other : Json) : SameSort (.unrecognized raw) (.unrecognized other)
  /-- Neither of the comparisons is one of a variable with a literal. -/
  | comparisons (c d : Comparison) {operands others : List Operand}
      (hoperands : ∀ path value, operands ≠ [.reference path, .literal value])
      (hothers : ∀ path value, others ≠ [.reference path, .literal value]) :
      SameSort (.expression (.compare c) operands) (.expression (.compare d) others)

/-- Plans that are the same but for dead nodes, which are of one sort where they differ. -/
inductive Indistinct : Operand → Operand → Prop where
  | same (o : Operand) : Indistinct o o
  | dead {o p : Operand} (h : SameSort o p) : Indistinct o p
  | and {operands others : List Operand} (h : List.Forall₂ Indistinct operands others) :
      Indistinct (.expression .and operands) (.expression .and others)
  | or {operands others : List Operand} (h : List.Forall₂ Indistinct operands others) :
      Indistinct (.expression .or operands) (.expression .or others)

variable {σ : Type} {treatment : Treatment} {resolver : Resolver σ} {o p : Operand}
  {operands others : List Operand}

theorem Leaf.obstacle? (h : o.Leaf) : o.obstacle? = some .leaf := by
  cases h <;> rfl

/-- Dead nodes of one sort have no filter for one reason. -/
theorem SameSort.obstacle? (h : SameSort o p) :
    ∃ obstacle, o.obstacle? = some obstacle ∧ p.obstacle? = some obstacle := by
  cases h with
  | unsupported tag operands others => exact ⟨.operator tag, rfl, rfl⟩
  | leaves ho hp => exact ⟨.leaf, ho.obstacle?, hp.obstacle?⟩
  | unrecognized raw other => exact ⟨.unrecognized, rfl, rfl⟩
  | comparisons c d hoperands hothers =>
    exact ⟨.comparison, obstacle?_of_misshaped hoperands, obstacle?_of_misshaped hothers⟩

theorem compile_eq_of_sameSort (h : SameSort o p) :
    o.compile treatment resolver = p.compile treatment resolver := by
  obtain ⟨obstacle, ho, hp⟩ := h.obstacle?
  rw [compile_of_obstacle? _ _ ho, compile_of_obstacle? _ _ hp]

theorem compileAll_eq_of_indistinct
    (each : ∀ o ∈ operands, ∀ p, Indistinct o p →
      o.compile treatment resolver = p.compile treatment resolver)
    (h : List.Forall₂ Indistinct operands others) :
    compileAll treatment resolver operands = compileAll treatment resolver others := by
  induction h with
  | nil => rfl
  | @cons o p rest others hfirst _ ih =>
    rw [compileAll_cons, compileAll_cons, each o List.mem_cons_self p hfirst,
      ih fun o ho => each o (List.mem_cons_of_mem _ ho)]

/-- Plans that differ only in what their dead nodes hold are compiled alike over every resolver. -/
theorem compile_eq_of_indistinct (h : Indistinct o p) :
    o.compile treatment resolver = p.compile treatment resolver := by
  induction o using induct_nodes generalizing p with
  | and os ih =>
    cases h with
    | same => rfl
    | dead h => exact compile_eq_of_sameSort h
    | and h => rw [compile_and, compile_and, compileAll_eq_of_indistinct (fun o ho p => ih o ho) h]
  | or os ih =>
    cases h with
    | same => rfl
    | dead h => exact compile_eq_of_sameSort h
    | or h => rw [compile_or, compile_or, compileAll_eq_of_indistinct (fun o ho p => ih o ho) h]
  | comparison c path value =>
    cases h with
    | same => rfl
    | dead h => exact compile_eq_of_sameSort h
  | dead o obstacle ho =>
    cases h with
    | same => rfl
    | dead h => exact compile_eq_of_sameSort h
    | and h => cases ho
    | or h => cases ho

/-- What dead nodes hold is ignored. Plans that differ only in it have the same filter or the same
error, leave the same in the log and the resolver in the same state, and make the same calls with
the same answers. The calls are kept, which changes nothing else. -/
theorem dead_contents_ignored (h : Indistinct o p) (treatment : Treatment) (resolver : Resolver σ)
    (state : σ) :
    let noted := (o.compile treatment resolver.noting).run (state, [])
    (p.compile treatment resolver.noting).run (state, []) = noted ∧
      (o.compile treatment resolver).run state = ⟨noted.result, noted.log, noted.state.1⟩ ∧
      (p.compile treatment resolver).run state = ⟨noted.result, noted.log, noted.state.1⟩ := by
  have hplain := run_compile_noting treatment resolver o state []
  refine ⟨?_, hplain, ?_⟩
  · rw [compile_eq_of_indistinct h]
  · rw [← compile_eq_of_indistinct h]
    exact hplain

/-- Two plans with dead nodes of all sorts around a comparison, over a resolver that counts its
calls. -/
theorem dead_contents_ignored_around_comparison :
    let resolver : Resolver Nat := fun path count => (.ok (path ++ toString count), count + 1)
    let asking := comparison (.compare (.relate .equal)) "owner" (.str "me")
    let o := expression .and [.expression (.other "like") [.reference "name", asking],
      .expression .or [.reference "owner", asking],
      .expression (.compare (.relate .less)) [.literal .null, .reference "age"],
      .unrecognized .null]
    let p := expression .and [.expression (.other "like") [],
      .expression .or [.literal .null, asking],
      .expression (.compare .oneOf) [], .unrecognized (.bool true)]
    Indistinct o p ∧ o ≠ p ∧
      (p.compile .skip resolver.noting).run (0, []) =
        (o.compile .skip resolver.noting).run (0, []) := by
  intro resolver asking o p
  have hinner : Indistinct (.expression .or [.reference "owner", asking])
      (.expression .or [.literal .null, asking]) :=
    .or (.cons (.dead (.leaves (.reference _) (.literal _))) (.cons (.same _) .nil))
  have h : Indistinct o p :=
    .and (.cons (.dead (.unsupported _ _ _)) (.cons hinner
      (.cons (.dead (.comparisons _ _ (by simp) (by simp)))
        (.cons (.dead (.unrecognized _ _)) .nil))))
  exact ⟨h, by decide, (dead_contents_ignored h .skip resolver 0).1⟩

end Operand

end AccessPlan
