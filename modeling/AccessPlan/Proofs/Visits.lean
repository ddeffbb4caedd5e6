import AccessPlan.Proofs.Results

/-!
# The visits of a plan

The compiler visits the comparisons and the dead nodes of a plan, depth first and from left to
right. A comparison calls the resolver, a dead node is left to its treatment. What a plan asks of
the resolver and of the log depends on its visits alone. Its shape only says how the filters of the
visits are put together.

* `Operand.visits`: the visits of a plan, in order. `Operand.assemble`: the filter of a plan from
  the filters of its visits.
* `Visit.compile`, `Visit.compileAll`: the filter of a visit, and of several visits in a row.
* `Visit.run_compileAll_ask_ok` and its companions: what one visit does to a run, and what several
  do.
* `Operand.compile_eq_visits`: compiling a plan is compiling its visits.
-/

namespace AccessPlan

/-- A place of a plan at which the compiler has something to do. -/
inductive Visit where
  /-- A comparison of a variable with a literal asks the resolver. -/
  | ask (c : Comparison) (path : String) (value : Json)
  /-- A dead node meets its treatment. -/
  | meet (obstacle : Obstacle)

namespace Operand

mutual

/-- The visits of a plan, depth first. -/
def visits : Operand → List Visit
  | .expression .and operands => visitsOf operands
  | .expression .or operands => visitsOf operands
  | .expression (.compare c) operands =>
    match operands with
    | [.reference path, .literal value] => [.ask c path value]
    | _ => [.meet .comparison]
  | .expression (.other tag) _ => [.meet (.operator tag)]
  | .reference _ => [.meet .leaf]
  | .literal _ => [.meet .leaf]
  | .unrecognized _ => [.meet .unrecognized]
termination_by structural o => o

/-- The visits of several plans, one plan after the other. -/
def visitsOf : List Operand → List Visit
  | [] => []
  | o :: rest => o.visits ++ visitsOf rest
termination_by structural os => os

end

mutual

/-- The filter of a plan, from the filters of its visits. -/
def assemble : Operand → List Filter → Filter
  | .expression .and operands, filters => .allOf (assembleAll operands filters)
  | .expression .or operands, filters => .anyOf (assembleAll operands filters)
  | .expression (.compare _) _, filters => filters.headD .empty
  | .expression (.other _) _, filters => filters.headD .empty
  | .reference _, filters => filters.headD .empty
  | .literal _, filters => filters.headD .empty
  | .unrecognized _, filters => filters.headD .empty
termination_by structural o => o

/-- The filters of several plans, each from its share of the filters. -/
def assembleAll : List Operand → List Filter → List Filter
  | [], _ => []
  | o :: rest, filters =>
    o.assemble (filters.take o.visits.length) ::
      assembleAll rest (filters.drop o.visits.length)
termination_by structural os => os

end

theorem visits_of_obstacle? {o : Operand} {obstacle : Obstacle}
    (h : o.obstacle? = some obstacle) : o.visits = [.meet obstacle] := by
  unfold obstacle? at h
  split at h
  · cases h
  · cases h
  · cases h
  · rename_i c operands hshape
    obtain rfl : Obstacle.comparison = obstacle := Option.some.inj h
    unfold visits
    split
    · exact absurd rfl (hshape _ _)
    · rfl
  all_goals
    obtain rfl := Option.some.inj h
    rfl

theorem assemble_of_obstacle? {o : Operand} {obstacle : Obstacle}
    (h : o.obstacle? = some obstacle) (filter : Filter) : o.assemble [filter] = filter := by
  unfold obstacle? at h
  split at h
  · cases h
  · cases h
  · cases h
  all_goals rfl

end Operand

namespace Visit

variable {σ : Type} (treatment : Treatment) (resolver : Resolver σ)

/-- The filter of a visit. -/
def compile : Visit → LogM σ CompileError Filter
  | .ask c path value =>
    (fun field => Filter.field field (c.condition value)) <$> Operand.resolveField resolver path
  | .meet obstacle => treatment.apply obstacle

/-- The filters of several visits, in order; the first error ends the whole. -/
def compileAll (visits : List Visit) : LogM σ CompileError (List Filter) :=
  visits.mapM (compile treatment resolver)

theorem compileAll_cons (v : Visit) (rest : List Visit) :
    compileAll treatment resolver (v :: rest) = (do
      let filter ← v.compile treatment resolver
      let filters ← compileAll treatment resolver rest
      return filter :: filters) := List.mapM_cons

theorem compileAll_append (front back : List Visit) :
    compileAll treatment resolver (front ++ back) = (do
      let filters ← compileAll treatment resolver front
      let others ← compileAll treatment resolver back
      return filters ++ others) := List.mapM_append

/-- Every visit gives one filter. -/
theorem length_of_compileAll_ok {visits : List Visit} {state : σ} {filters : List Filter}
    (h : ((compileAll treatment resolver visits).run state).result = .ok filters) :
    filters.length = visits.length := by
  induction visits generalizing state filters with
  | nil =>
    obtain rfl : [] = filters := Except.ok.inj h
    rfl
  | cons v rest ih =>
    rw [compileAll_cons] at h
    obtain ⟨filter, -, h⟩ := LogM.result_bind_ok_iff.1 h
    obtain ⟨others, hrest, h⟩ := LogM.result_bind_ok_iff.1 h
    obtain rfl : filter :: others = filters := Except.ok.inj h
    rw [List.length_cons, List.length_cons, ih hrest]

/-! What one visit does to a run: the four ways in which a run can go on or end. Several visits
after which it goes on do what they do one by one. -/

section

variable {treatment resolver} {state after : σ}

theorem run_compileAll_ask_ok {c : Comparison} {path field : String} {value : Json}
    {rest : List Visit} (h : resolver path state = (.ok field, after)) :
    (compileAll treatment resolver (.ask c path value :: rest)).run state =
      let later := (compileAll treatment resolver rest).run after
      ⟨later.result.map (.field field (c.condition value) :: ·), later.log, later.state⟩ := by
  rw [compileAll_cons, compile, LogM.run_bind, LogM.run_map, Operand.run_resolveField_ok _ h]
  simp only [Except.map, List.nil_append, bind_pure_comp, LogM.run_map]

theorem run_compileAll_ask_error {c : Comparison} {path : String} {value : Json}
    {rest : List Visit} {e : ResolveError} (h : resolver path state = (.error e, after)) :
    (compileAll treatment resolver (.ask c path value :: rest)).run state =
      ⟨.error (.resolver e), [], after⟩ := by
  rw [compileAll_cons, compile, LogM.run_bind, LogM.run_map, Operand.run_resolveField_error _ h]
  rfl

theorem run_compileAll_meet_skip {obstacle : Obstacle} {rest : List Visit} :
    (compileAll .skip resolver (.meet obstacle :: rest)).run state =
      let later := (compileAll .skip resolver rest).run state
      ⟨later.result.map (.empty :: ·), .skipped obstacle :: later.log, later.state⟩ := by
  rw [compileAll_cons, compile, LogM.run_bind, Treatment.run_apply_skip]
  simp only [bind_pure_comp, LogM.run_map, List.cons_append, List.nil_append]

theorem run_compileAll_append_ok {front back : List Visit} {filters : List Filter}
    {log : List LogEntry}
    (h : (compileAll treatment resolver front).run state = ⟨.ok filters, log, after⟩) :
    (compileAll treatment resolver (front ++ back)).run state =
      let later := (compileAll treatment resolver back).run after
      ⟨later.result.map (filters ++ ·), log ++ later.log, later.state⟩ := by
  rw [compileAll_append, LogM.run_bind, h]
  simp only [bind_pure_comp, LogM.run_map]

theorem run_compileAll_meet_reject {obstacle : Obstacle} {rest : List Visit} :
    (compileAll .reject resolver (.meet obstacle :: rest)).run state =
      ⟨.error (.untranslatable obstacle), [], state⟩ := by
  rw [compileAll_cons, compile, LogM.run_bind, Treatment.run_apply_reject]

end

end Visit

namespace LogM

variable {σ ε α β : Type}

/-- A second computation counts only at the values that the first one gives. -/
theorem bind_congr_of_ok {x : LogM σ ε α} {f g : α → LogM σ ε β}
    (h : ∀ state value, (x.run state).result = .ok value → f value = g value) :
    x >>= f = x >>= g := by
  apply ext_run
  intro state
  rw [run_bind, run_bind]
  cases hx : (x.run state).result with
  | error e => rfl
  | ok value => simp only [h state value hx]

end LogM

namespace Operand

variable {σ : Type} (treatment : Treatment) (resolver : Resolver σ)

theorem compileAll_eq_visitsOf {operands : List Operand}
    (each : ∀ o ∈ operands,
      o.compile treatment resolver = o.assemble <$> Visit.compileAll treatment resolver o.visits) :
    compileAll treatment resolver operands =
      assembleAll operands <$> Visit.compileAll treatment resolver (visitsOf operands) := by
  induction operands with
  | nil => rfl
  | cons o rest ih =>
    have hrest := ih fun p hp => each p (List.mem_cons_of_mem o hp)
    rw [compileAll_cons, each o List.mem_cons_self, hrest, visitsOf, Visit.compileAll_append]
    simp only [map_eq_pure_bind, bind_assoc, pure_bind]
    apply LogM.bind_congr_of_ok
    intro state filters hfilters
    -- each plan takes as many filters as it has visits, and the visits have left as many
    have hlength := Visit.length_of_compileAll_ok treatment resolver hfilters
    simp [assembleAll, ← hlength]

/-- Compiling a plan is compiling its visits and putting their filters together. -/
theorem compile_eq_visits (o : Operand) :
    o.compile treatment resolver = o.assemble <$> Visit.compileAll treatment resolver o.visits := by
  induction o using induct_nodes with
  | and os ih =>
    rw [compile_and, compileAll_eq_visitsOf treatment resolver ih, Functor.map_map]
    rfl
  | or os ih =>
    rw [compile_or, compileAll_eq_visitsOf treatment resolver ih, Functor.map_map]
    rfl
  | comparison c path value =>
    rw [compile_comparison]
    simp [visits, Visit.compileAll, Visit.compile, assemble]
  | dead o obstacle h =>
    rw [compile_of_obstacle? _ _ h, visits_of_obstacle? h]
    simp [Visit.compileAll, Visit.compile, assemble_of_obstacle? h]

theorem run_compile (o : Operand) (state : σ) :
    (o.compile treatment resolver).run state =
      let visited := (Visit.compileAll treatment resolver o.visits).run state
      ⟨visited.result.map o.assemble, visited.log, visited.state⟩ := by
  rw [compile_eq_visits, LogM.run_map]

end Operand

end AccessPlan
