import AccessPlan.Filter.Equality
import AccessPlan.Plan.Equality
import AccessPlan.Proofs.Endings
import Mathlib.Logic.Function.Basic

/-!
# Filters read back as plans

Where plans may be rejected and every path has a field of its own, a filter tells which plan it
comes from, but for one thing: `in` may have compared with a scalar, or with the list of it alone.

* `Operand.listed`: the plan in which `in` compares with lists only.
* `Operand.image`: the filter of a plan, if the resolver is a function that refuses nothing.
  `Operand.run_compile_rename`: compiling gives this filter.
* `Operand.agree_image`: filters compare as the plans that they come from.
* `Filter.plan`: the plan that a filter is read back as. `Filter.image_plan`, `allAlive_plan`: it
  leads to this filter.
* `Operand.rejecting_loses_nothing`: both directions together.
-/

namespace AccessPlan

variable {σ : Type}

/-- The resolver that gives every path the field that a function names. -/
def Resolver.rename (f : String → String) : Resolver σ := .ofFunction fun path => .ok (f path)

theorem Resolver.rename_id : (rename id : Resolver σ) = identity := rfl

/-! ## Plans with lists -/

/-- The literal that a comparison is made with, for `in` as an array: a literal of another kind is
put into one. -/
def Comparison.listed : Comparison → Json → Json
  | .relate _, literal => literal
  | .oneOf, .arr items => .arr items
  | .oneOf, scalar => .arr [scalar]

theorem Comparison.listed_oneOf (literal : Json) :
    Comparison.oneOf.listed literal = .arr literal.candidates := by
  cases literal <;> rfl

theorem Comparison.condition_comparison (c : Comparison) (literal : Json) :
    (c.condition literal).comparison = c := by
  cases c <;> rfl

theorem Comparison.condition_operand (c : Comparison) (literal : Json) :
    (c.condition literal).operand = c.listed literal := by
  cases c with
  | relate r => rfl
  | oneOf => exact (listed_oneOf literal).symm

namespace Operand

mutual

/-- The plan in which every `in` compares with an array. -/
def listed : Operand → Operand
  | .expression .and operands => .expression .and (listedAll operands)
  | .expression .or operands => .expression .or (listedAll operands)
  | .expression (.compare c) operands =>
    match operands with
    | [.reference path, .literal value] => comparison (.compare c) path (c.listed value)
    | _ => .expression (.compare c) operands
  | .expression (.other tag) operands => .expression (.other tag) operands
  | .reference path => .reference path
  | .literal value => .literal value
  | .unrecognized raw => .unrecognized raw
termination_by structural o => o

/-- The same for several plans. -/
def listedAll : List Operand → List Operand
  | [] => []
  | o :: rest => o.listed :: listedAll rest
termination_by structural os => os

end

/-! ## Plans whose paths all have fields -/

mutual

/-- The filter of a plan whose paths have the fields that a function names. -/
def image (f : String → String) : Operand → Filter
  | .expression .and operands => .allOf (imageAll f operands)
  | .expression .or operands => .anyOf (imageAll f operands)
  | .expression (.compare c) operands =>
    match operands with
    | [.reference path, .literal value] => .field (f path) (c.condition value)
    | _ => .empty
  | .expression (.other _) _ => .empty
  | .reference _ => .empty
  | .literal _ => .empty
  | .unrecognized _ => .empty
termination_by structural o => o

/-- The filters of several such plans. -/
def imageAll (f : String → String) : List Operand → List Filter
  | [] => []
  | o :: rest => o.image f :: imageAll f rest
termination_by structural os => os

end

variable {f : String → String} {number : Number → Number → Bool} {o p q : Operand}
  {operands others : List Operand} {filter : Filter}

theorem run_compileAll_rename
    (each : ∀ o ∈ operands, o.AllAlive → ∀ state : σ,
      (o.compile .reject (.rename f)).run state = ⟨.ok (o.image f), [], state⟩)
    (halive : ∀ o ∈ operands, o.AllAlive) (state : σ) :
    (compileAll .reject (.rename f) operands).run state =
      ⟨.ok (imageAll f operands), [], state⟩ := by
  induction operands with
  | nil => rfl
  | cons o rest ih =>
    have hfirst := each o List.mem_cons_self (halive o List.mem_cons_self) state
    have hrest := ih (fun p hp => each p (List.mem_cons_of_mem o hp))
      fun p hp => halive p (List.mem_cons_of_mem o hp)
    rw [compileAll_cons, LogM.run_bind, hfirst]
    simp only [LogM.run_bind, hrest, LogM.run_pure, imageAll, List.append_nil]

/-- A plan without dead nodes compiles to its image. -/
theorem run_compile_rename (h : o.AllAlive) (state : σ) :
    (o.compile .reject (.rename f)).run state = ⟨.ok (o.image f), [], state⟩ := by
  induction o using induct_nodes generalizing state with
  | and os ih =>
    rw [compile_and, LogM.run_map, run_compileAll_rename ih (fun o ho => h.of_mem ho)]
    rfl
  | or os ih =>
    rw [compile_or, LogM.run_map, run_compileAll_rename ih (fun o ho => h.of_mem ho)]
    rfl
  | comparison c path value => rfl
  | dead o obstacle ho =>
    rw [h.obstacle?_eq_none] at ho
    cases ho

theorem result_compile_rename_ok_iff {state : σ} :
    ((o.compile .reject (.rename f)).run state).result = .ok filter ↔
      o.AllAlive ∧ o.image f = filter := by
  constructor
  · intro h
    have halive : o.AllAlive := allAlive_iff.2 ((result_compile_ok_iff.1 ⟨filter, h⟩).alive rfl)
    rw [run_compile_rename halive] at h
    exact ⟨halive, Except.ok.inj h⟩
  · rintro ⟨halive, rfl⟩
    rw [run_compile_rename halive]

/-! ## Filters compare as their plans -/

theorem agree_condition (c d : Comparison) (value other : Json) :
    (c.condition value).agree number (d.condition other) =
      (c == d && (c.listed value).agree number (d.listed other)) := by
  rw [Condition.agree_eq, c.condition_comparison, d.condition_comparison, c.condition_operand,
    d.condition_operand]

theorem agreeAll_imageAll
    (each : ∀ o ∈ operands, ∀ p : Operand, o.AllAlive → p.AllAlive →
      (o.image f).agree number (p.image f) = o.listed.agree number p.listed)
    (hoperands : ∀ o ∈ operands, o.AllAlive) (hothers : ∀ p ∈ others, p.AllAlive) :
    Filter.agreeAll number (imageAll f operands) (imageAll f others) =
      agreeAll number (listedAll operands) (listedAll others) := by
  induction operands generalizing others with
  | nil => cases others <;> rfl
  | cons o rest ih =>
    cases others with
    | nil => rfl
    | cons p others =>
      obtain ⟨ho, hrest⟩ := List.forall_mem_cons.1 hoperands
      obtain ⟨hp, hothers⟩ := List.forall_mem_cons.1 hothers
      have hfirst := each o List.mem_cons_self p ho hp
      have hlater := ih (fun o ho => each o (List.mem_cons_of_mem _ ho)) hrest hothers
      simp only [imageAll, listedAll, Filter.agreeAll, agreeAll, hfirst, hlater]

/-- If no two paths share a field, the filters of two plans compare as the plans do when `in`
compares with lists only. -/
theorem agree_image (hf : Function.Injective f) (hp : p.AllAlive) (hq : q.AllAlive) :
    (p.image f).agree number (q.image f) = p.listed.agree number q.listed := by
  induction p using induct_nodes generalizing q with
  | and os ih =>
    -- the root of a plan without dead nodes has one of three forms, and so has its filter
    cases hq.root with
    | and others =>
      exact agreeAll_imageAll (fun o ho p hop hpp => ih o ho hop hpp)
        (fun o ho => hp.of_mem ho) fun o ho => hq.of_mem ho
    | or others => rfl
    | comparison d path value => rfl
  | or os ih =>
    cases hq.root with
    | and others => rfl
    | or others =>
      exact agreeAll_imageAll (fun o ho p hop hpp => ih o ho hop hpp)
        (fun o ho => hp.of_mem ho) fun o ho => hq.of_mem ho
    | comparison d path value => rfl
  | comparison c path value =>
    cases hq.root with
    | and others => rfl
    | or others => rfl
    | comparison d path' value' =>
      simp only [image, listed, comparison, Filter.agree, agree, agreeAll, agree_condition]
      -- `f` is injective, so that fields are equal only if the paths are
      have hpath : (f path == f path') = (path == path') := by
        rw [Bool.eq_iff_iff, beq_iff_eq, beq_iff_eq, hf.eq_iff]
      have hoperator : (Operator.compare c == Operator.compare d) = (c == d) := by
        rw [Bool.eq_iff_iff, beq_iff_eq, beq_iff_eq, Operator.compare.injEq]
      rw [hpath, hoperator, Bool.and_true, Bool.and_left_comm]
  | dead o obstacle ho =>
    rw [hp.obstacle?_eq_none] at ho
    cases ho

end Operand

/-! ## Reading back -/

/-- A condition is the one of its comparison on what it compares with. -/
theorem Condition.comparison_condition (condition : Condition) :
    condition.comparison.condition condition.operand = condition := by
  cases condition <;> rfl

namespace Filter

mutual

/-- The plan that a filter is read back as. A filter without constraint could come from any dead
node, and is read as one. -/
def plan : Filter → Operand
  | .allOf filters => .expression .and (planAll filters)
  | .anyOf filters => .expression .or (planAll filters)
  | .field name condition =>
    .comparison (.compare condition.comparison) name condition.operand
  | .empty => .unrecognized .null
termination_by structural f => f

/-- The plans that several filters are read back as. -/
def planAll : List Filter → List Operand
  | [] => []
  | f :: rest => f.plan :: planAll rest
termination_by structural fs => fs

end

mutual

theorem image_plan : (filter : Filter) → filter.plan.image id = filter
  | .allOf filters => congrArg allOf (imageAll_planAll filters)
  | .anyOf filters => congrArg anyOf (imageAll_planAll filters)
  | .field name condition => congrArg (field name) condition.comparison_condition
  | .empty => rfl

theorem imageAll_planAll : (filters : List Filter) →
    Operand.imageAll id (planAll filters) = filters
  | [] => rfl
  | filter :: rest => congrArg₂ List.cons (image_plan filter) (imageAll_planAll rest)

end

/-- Whether a filter places a constraint at every position. -/
def Constrains (filter : Filter) : Prop := ∀ position, filter.node? position ≠ some .empty

theorem Constrains.of_mem {filter child : Filter} (h : filter.Constrains)
    (hchild : child ∈ filter.branches) : child.Constrains := by
  intro position hempty
  obtain ⟨index, hindex⟩ := List.getElem?_of_mem hchild
  exact h (index :: position) (by rw [node?, hindex]; exact hempty)

mutual

theorem allAlive_plan : (filter : Filter) → filter.Constrains → filter.plan.AllAlive
  | .allOf filters, h => .of_branches (.and _) (allAlive_planAll filters fun _ hf => h.of_mem hf)
  | .anyOf filters, h => .of_branches (.or _) (allAlive_planAll filters fun _ hf => h.of_mem hf)
  | .field _ _, _ => .of_branches (.comparison _ _ _) nofun
  | .empty, h => absurd rfl (h [])

theorem allAlive_planAll : (filters : List Filter) → (∀ f ∈ filters, f.Constrains) →
    ∀ o ∈ planAll filters, o.AllAlive
  | [], _ => nofun
  | filter :: rest, h => by
    obtain ⟨hfilter, hrest⟩ := List.forall_mem_cons.1 h
    exact List.forall_mem_cons.2 ⟨allAlive_plan filter hfilter, allAlive_planAll rest hrest⟩

end

end Filter

namespace Operand

/-- Where plans may be rejected and no two paths share a field, plans have equal filters if they are
equal themselves up to the scalars that `in` compares with, be it exactly or with literals compared
as JSON. Where every path is its own field, plans have the filters that place a constraint at every
position, and each of these is the filter of the plan that it is read back as. -/
theorem rejecting_loses_nothing :
    (∀ f : String → String, Function.Injective f →
      ∀ (p q : Operand) (t u : Filter) (state later : σ),
        ((p.compile .reject (.rename f)).run state).result = .ok t →
        ((q.compile .reject (.rename f)).run later).result = .ok u →
          (t = u ↔ p.listed = q.listed) ∧ (t.same u = true ↔ p.listed.same q.listed = true)) ∧
    ∀ (t : Filter) (state : σ),
      ((∃ p : Operand, ((p.compile .reject .identity).run state).result = .ok t) ↔ t.Constrains) ∧
        (t.Constrains → (t.plan.compile .reject .identity).run state = ⟨.ok t, [], state⟩) := by
  have hplan : ∀ (t : Filter) (state : σ), t.Constrains →
      (t.plan.compile .reject .identity).run state = ⟨.ok t, [], state⟩ := by
    intro t state ht
    rw [← Resolver.rename_id, run_compile_rename (Filter.allAlive_plan t ht), Filter.image_plan]
  refine ⟨fun f hf p q t u state later hp hq => ?_, fun t state => ⟨⟨?_, ?_⟩, hplan t state⟩⟩
  · -- neither plan has a dead node, so that both filters are images
    obtain ⟨hpalive, rfl⟩ := result_compile_rename_ok_iff.1 hp
    obtain ⟨hqalive, rfl⟩ := result_compile_rename_ok_iff.1 hq
    constructor
    · rw [← Filter.agree_iff_eq, agree_image hf hpalive hqalive, agree_iff_eq]
    · rw [Filter.same, agree_image hf hpalive hqalive, same]
  · rintro ⟨p, hp⟩
    exact node?_ne_empty_of_reject hp
  · intro ht
    exact ⟨t.plan, by rw [hplan t state ht]⟩

/-- Membership in a scalar and in the list of it alone have one filter, which is read back as the
latter. -/
theorem rejecting_loses_nothing_of_membership :
    let f := fun path => "row." ++ path
    let p := Operand.comparison (.compare .oneOf) "owner" (.str "me")
    let q := Operand.comparison (.compare .oneOf) "owner" (.arr [.str "me"])
    let t := Filter.field "row.owner" (.oneOf [.str "me"])
    Function.Injective f ∧ p ≠ q ∧
      ((p.compile .reject (.rename f)).run ()).result = .ok t ∧
      ((q.compile .reject (.rename f)).run ()).result = .ok t ∧
      p.listed = q.listed ∧ t.Constrains ∧
      (t.plan.compile .reject .identity).run () = ⟨.ok t, [], ()⟩ := by
  intro f p q t
  have hf : Function.Injective f := fun a b h => by simpa [f] using h
  have hp : ((p.compile .reject (.rename f)).run ()).result = .ok t := rfl
  have hq : ((q.compile .reject (.rename f)).run ()).result = .ok t := rfl
  have ht : t.Constrains := node?_ne_empty_of_reject hp
  exact ⟨hf, by decide, hp, hq, (rejecting_loses_nothing.1 f hf p q t t () () hp hq).1.1 rfl, ht,
    (rejecting_loses_nothing.2 t ()).2 ht⟩

end Operand

end AccessPlan
