import AccessPlan.Proofs.Results

/-!
# Compiling keeps the meaning

A filter and the plan that it comes from say the same of every row, if each path is read where the
resolver finds its field.

* `Resolver.Reads`: an assignment that reads a row through a resolver.
* `admits_iff_holds`: the filter of a plan admits the rows of which the plan is true, if no dead
  node is skipped on the way.
* `skipping_widens`: skipping takes every dead node for true, so that no valuation of the dead nodes
  makes a plan true of a row that its filter does not admit.

Both rest on one induction over the nodes (`admits_iff_holds_of_assumes`). It carries the valuation
that the treatment of dead nodes assumes.
-/

namespace AccessPlan

/-- Whether an assignment gives every path that has a field what a row holds there. -/
def Resolver.Reads (f : String → Except ResolveError String) (row value : String → Json) : Prop :=
  ∀ path field, f path = .ok field → value path = row field

/-- Whether the truth values of dead nodes are those that the treatment gives them: what is skipped
is true. -/
def Treatment.Assumes (treatment : Treatment) (dead : Valuation) : Prop :=
  treatment = .skip → ∀ position, dead position

theorem Treatment.Assumes.within {treatment : Treatment} {dead : Valuation}
    (h : treatment.Assumes dead) (index : Nat) : treatment.Assumes (dead.within index) :=
  fun ht position => h ht (index :: position)

variable {i : Interpretation} {row value : String → Json} {f : String → Except ResolveError String}
  {treatment : Treatment} {σ : Type}

/-- The condition of a comparison asks of a field what the comparison asks of its variable. -/
theorem Comparison.holds_condition_iff (c : Comparison) (literal given : Json) :
    (c.condition literal).Holds i given ↔ c.Holds i given literal := by
  cases c with
  | relate relation => exact Iff.rfl
  | oneOf => cases literal <;> exact Iff.rfl

namespace Operand

/-- The filters of several plans say what the plans say, one by one and so all and any of them. -/
theorem admits_iff_holds_of_compileAll {operands : List Operand}
    (each : ∀ o ∈ operands, ∀ (dead : Valuation) (state : σ) (filter : Filter),
      treatment.Assumes dead →
      ((o.compile treatment (.ofFunction f)).run state).result = .ok filter →
      (filter.Admits i row ↔ o.Holds i value dead))
    {dead : Valuation} (hdead : treatment.Assumes dead) (index : Nat) {state : σ}
    {filters : List Filter}
    (h : ((compileAll treatment (.ofFunction f) operands).run state).result = .ok filters) :
    (Filter.AdmitsAll i row filters ↔ HoldsAll i value dead index operands) ∧
      (Filter.AdmitsAny i row filters ↔ HoldsAny i value dead index operands) := by
  -- the index counts the operands that have been passed, since each has its part of the valuation
  induction operands generalizing index state filters with
  | nil =>
    obtain rfl : [] = filters := Except.ok.inj h
    exact ⟨Iff.rfl, Iff.rfl⟩
  | cons o rest ih =>
    rw [compileAll_cons] at h
    obtain ⟨filter, ho, h⟩ := LogM.result_bind_ok_iff.1 h
    obtain ⟨others, hrest, h⟩ := LogM.result_bind_ok_iff.1 h
    obtain rfl : filter :: others = filters := Except.ok.inj h
    have hfirst := each o List.mem_cons_self _ _ _ (hdead.within index) ho
    obtain ⟨hall, hany⟩ := ih (fun p hp => each p (List.mem_cons_of_mem o hp)) (index + 1) hrest
    exact ⟨and_congr hfirst hall, or_congr hfirst hany⟩

/-- The filter of a plan says what the plan says, dead nodes taken as the treatment takes them. -/
theorem admits_iff_holds_of_assumes (hvalue : Resolver.Reads f row value) (o : Operand) :
    ∀ (dead : Valuation) (state : σ) (filter : Filter), treatment.Assumes dead →
      ((o.compile treatment (.ofFunction f)).run state).result = .ok filter →
      (filter.Admits i row ↔ o.Holds i value dead) := by
  induction o using induct_nodes with
  | and os ih =>
    intro dead state filter hdead h
    rw [compile_and] at h
    obtain ⟨filters, hall, rfl⟩ := LogM.result_map_ok_iff.1 h
    simp only [Filter.Admits, Holds]
    exact (admits_iff_holds_of_compileAll ih hdead 0 hall).1
  | or os ih =>
    intro dead state filter hdead h
    rw [compile_or] at h
    obtain ⟨filters, hall, rfl⟩ := LogM.result_map_ok_iff.1 h
    simp only [Filter.Admits, Holds]
    exact (admits_iff_holds_of_compileAll ih hdead 0 hall).2
  | comparison c path literal =>
    intro dead state filter hdead h
    rw [compile_comparison] at h
    obtain ⟨field, hfield, rfl⟩ := LogM.result_map_ok_iff.1 h
    have hf : f path = .ok field := (result_resolveField_ok_iff _).1 hfield
    simp only [Filter.Admits, Holds]
    rw [Comparison.holds_condition_iff, hvalue path field hf]
  | dead o obstacle ho =>
    -- only a skipped node has a filter, the one that admits every row, and it is taken for true
    intro dead state filter hdead h
    rw [compile_of_obstacle? _ _ ho] at h
    obtain ⟨ht, rfl⟩ := Treatment.result_apply_ok_iff.1 h
    exact iff_of_true trivial ((holds_iff_of_obstacle? ho).2 (hdead ht []))

/-- A filter admits a row exactly when its plan is true of the row, if the plan was compiled without
skipping a node: because no node may be skipped, or because none is dead. -/
theorem admits_iff_holds (i : Interpretation) (dead : Valuation) {o : Operand} {state : σ}
    {filter : Filter} (hvalue : Resolver.Reads f row value)
    (halive : treatment = .reject ∨ o.AllAlive)
    (h : ((o.compile treatment (.ofFunction f)).run state).result = .ok filter) :
    filter.Admits i row ↔ o.Holds i value dead := by
  rcases halive with rfl | halive
  · have hdead : Treatment.reject.Assumes dead := fun ht => nomatch ht
    exact admits_iff_holds_of_assumes hvalue o dead state filter hdead h
  · -- without dead nodes the valuation does not matter, so it may be one that skipping assumes
    have htrue := admits_iff_holds_of_assumes (i := i) hvalue o (fun _ => True) state filter
      (fun _ _ => trivial) h
    exact htrue.trans (holds_congr_of_allAlive _ dead o halive)

/-- A plan in which a conjunction, a disjunction and a membership in a scalar nest. -/
theorem admits_iff_holds_of_nested :
    let f := fun path => if path = "x" then .ok "a" else .error (ResolveError.unmapped path)
    let i : Interpretation := ⟨fun _ given other => given = other, fun given items => given ∈ items⟩
    let o : Operand := .expression .and
      [.comparison (.compare (.relate .equal)) "x" (.str "a"),
        .expression .or [.comparison (.compare .oneOf) "x" (.bool true)]]
    let filter : Filter := .allOf
      [.field "a" (.relate .equal (.str "a")), .anyOf [.field "a" (.oneOf [.bool true])]]
    Resolver.Reads f .str (fun _ => .str "a") ∧ o.AllAlive ∧
      ((o.compile .skip (.ofFunction f)).run ()).result = .ok filter ∧
      (filter.Admits i .str ↔ o.Holds i (fun _ => .str "a") fun _ => False) := by
  intro f i o filter
  have hvalue : Resolver.Reads f .str (fun _ => .str "a") := by
    intro path field h
    by_cases hp : path = "x"
    · obtain rfl : "a" = field := by simpa [f, hp] using h
      rfl
    · simp [f, hp] at h
  have halive : o.AllAlive := by
    refine .of_branches (.and _) fun child hc => ?_
    simp only [o, branches, List.mem_cons, List.not_mem_nil, or_false] at hc
    rcases hc with rfl | rfl
    · exact .of_branches (.comparison _ _ _) (by simp [branches, comparison])
    · refine .of_branches (.or _) fun child hc => ?_
      obtain rfl := List.mem_singleton.1 hc
      exact .of_branches (.comparison _ _ _) (by simp [branches, comparison])
  have h : ((o.compile .skip (.ofFunction f)).run ()).result = .ok filter := rfl
  exact ⟨hvalue, halive, h, admits_iff_holds i (fun _ => False) hvalue (.inr halive) h⟩

/-- Skipping only widens: whatever the dead nodes say, a row of which the plan is true is admitted.
The filter admits the rows of which the plan is true if all its dead nodes are. -/
theorem skipping_widens (i : Interpretation) {o : Operand} {state : σ} {filter : Filter}
    (hvalue : Resolver.Reads f row value)
    (h : ((o.compile .skip (.ofFunction f)).run state).result = .ok filter) :
    (∀ dead : Valuation, o.Holds i value dead → filter.Admits i row) ∧
      (filter.Admits i row ↔ o.Holds i value fun _ => True) := by
  have htrue := admits_iff_holds_of_assumes (i := i) hvalue o (fun _ => True) state filter
    (fun _ _ => trivial) h
  refine ⟨fun dead hdead => htrue.2 ?_, htrue⟩
  exact Holds.mono (fun _ _ => trivial) o hdead

/-- A disjunction in which one of two nodes is skipped. -/
theorem skipping_widens_disjunction :
    let i : Interpretation := ⟨fun _ given other => given = other, fun given items => given ∈ items⟩
    let o : Operand := .expression .or
      [.unrecognized .null, .comparison (.compare (.relate .equal)) "x" (.bool true)]
    let filter : Filter := .anyOf [.empty, .field "x" (.relate .equal (.bool true))]
    Resolver.Reads .ok .str .str ∧
      ((o.compile .skip (.ofFunction .ok)).run ()).result = .ok filter ∧
      (∀ dead : Valuation, o.Holds i .str dead → filter.Admits i .str) ∧
      (filter.Admits i .str ↔ o.Holds i .str fun _ => True) := by
  intro i o filter
  have hvalue : Resolver.Reads .ok .str .str := by
    intro path field h
    exact congrArg Json.str (Except.ok.inj h)
  have h : ((o.compile .skip (.ofFunction .ok)).run ()).result = .ok filter := rfl
  exact ⟨hvalue, h, skipping_widens i hvalue h⟩

end Operand

end AccessPlan
