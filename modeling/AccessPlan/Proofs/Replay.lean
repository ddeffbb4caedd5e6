import AccessPlan.Proofs.Recording
import AccessPlan.Resolver.FieldMap

/-!
# Replaying a compilation

The record that is left when a plan has been compiled over a recorder holds all that the filter of
the plan depends on.

* `Resolver.Replays`: a resolver that answers what is on record from it.
* `Resolver.replays_recording`, `replays_strict`: the recorder does, and so does the strict map of
  the record.
* `Visit.run_compileAll_replay`, `Operand.run_compile_replay`: a compilation that was recorded can
  be repeated over any such resolver.
* `Operand.record_replays_compile`: what is on record after a compilation, and its repetitions.
-/

namespace AccessPlan

variable {σ τ : Type}

namespace Resolver

/-- What is on record is answered from it, and the state stays as it is. -/
def Replays (resolver : Resolver τ) (record : Dict String) (state : τ) : Prop :=
  ∀ path field, record.get? path = some field → resolver path state = (.ok field, state)

/-- One that replays a record replays what the record held before it grew. -/
theorem Replays.of_within {resolver : Resolver τ} {d e : Dict String} {state : τ}
    (h : resolver.Replays e state) (hw : d.Within e) : resolver.Replays d state :=
  fun path field hd => h path field (hw path field hd)

/-- A recorder replays its record. -/
theorem replays_recording (resolver : Resolver σ) (state : Recorded σ) :
    resolver.recording.Replays state.record state :=
  fun _ _ => recording_of_get?

/-- The strict map of a record replays it. -/
theorem replays_strict (record : Dict String) (state : τ) :
    (FieldMap.ofList record.toList).toStrict.resolver.Replays record state := by
  intro path field h
  have hmap : (FieldMap.ofList record.toList).toStrict.get? path = some field := by
    rw [← h, ← Entries.lookup_reverse_toList]
    exact FieldMap.get?_ofList record.toList path
  rw [FieldMap.resolver, ofFunction, FieldMap.resolve, hmap]

end Resolver

variable {treatment : Treatment} {resolver : Resolver σ} {q : Resolver τ} {other : τ}
  {state : Recorded σ}

/-! ## Visits -/

namespace Visit

/-- No visit changes or removes an entry. -/
theorem within_compileAll (treatment : Treatment) (resolver : Resolver σ) (visits : List Visit)
    (state : Recorded σ) :
    state.record.Within
      ((compileAll treatment resolver.recording visits).run state).state.record := by
  induction visits generalizing state with
  | nil => exact .refl _
  | cons v rest ih =>
    -- only a call writes, and a recorder that is called keeps its entries
    cases v with
    | ask c path value =>
      have hstep := resolver.within_recording path state
      rcases hcall : resolver.recording path state with ⟨e | field, next⟩
      · rw [hcall] at hstep
        rw [run_compileAll_ask_error hcall]
        exact hstep
      · rw [hcall] at hstep
        rw [run_compileAll_ask_ok hcall]
        exact hstep.trans (ih next)
    | meet obstacle =>
      cases treatment with
      | skip =>
        rw [run_compileAll_meet_skip]
        exact ih state
      | reject =>
        rw [run_compileAll_meet_reject]
        exact .refl _

/-- Visits that a recorder saw through are seen through alike by a resolver that replays the record
that they left. -/
theorem run_compileAll_replay {visits : List Visit} {filters : List Filter}
    (h : ((compileAll treatment resolver.recording visits).run state).result = .ok filters)
    (hq : q.Replays ((compileAll treatment resolver.recording visits).run state).state.record
      other) :
    (compileAll treatment q visits).run other =
      ⟨.ok filters, ((compileAll treatment resolver.recording visits).run state).log, other⟩ := by
  induction visits generalizing state filters with
  | nil =>
    obtain rfl : [] = filters := Except.ok.inj h
    rfl
  | cons v rest ih =>
    cases v with
    | ask c path value =>
      rcases hcall : resolver.recording path state with ⟨e | field, next⟩
      · rw [run_compileAll_ask_error hcall] at h
        cases h
      · rw [run_compileAll_ask_ok hcall] at h hq ⊢
        -- the answer is on record after the call, and so it is in the end
        have hfield : q path other = (.ok field, other) :=
          hq path field (within_compileAll treatment resolver rest next path field
            (Resolver.get?_of_recording_ok hcall))
        obtain ⟨others, hothers, rfl⟩ := Except.map_eq_ok_iff.1 h
        rw [run_compileAll_ask_ok hfield, ih hothers hq]
        rfl
    | meet obstacle =>
      cases treatment with
      | skip =>
        rw [run_compileAll_meet_skip] at h hq ⊢
        obtain ⟨others, hothers, rfl⟩ := Except.map_eq_ok_iff.1 h
        rw [run_compileAll_meet_skip, ih hothers hq]
        rfl
      | reject =>
        rw [run_compileAll_meet_reject] at h
        cases h

end Visit

/-! ## Plans -/

namespace Operand

variable {o : Operand} {nodes front : List Operand} {node : Operand} {filter : Filter}
  {e : CompileError}

/-- A compilation that was recorded can be repeated over a resolver that replays the record. -/
theorem run_compile_replay
    (h : ((o.compile treatment resolver.recording).run state).result = .ok filter)
    (hq : q.Replays ((o.compile treatment resolver.recording).run state).state.record other) :
    (o.compile treatment q).run other =
      ⟨.ok filter, ((o.compile treatment resolver.recording).run state).log, other⟩ := by
  rw [run_compile] at h hq ⊢
  obtain ⟨filters, hfilters, rfl⟩ := Except.map_eq_ok_iff.1 h
  rw [Visit.run_compileAll_replay hfilters hq, run_compile]
  rfl

/-- The node that compiling ends with puts nothing on record. -/
theorem record_of_offends (h : Offends treatment resolver.recording state node e) :
    (resolver.recording.callAll (asked [node]) state).2.record = state.record := by
  rcases h.dead_or_refused with ⟨-, obstacle, ho, -⟩ | ⟨c, path, value, refusal, rfl, hanswer, -⟩
  · rw [asked_of_obstacle? ho]
    rfl
  · exact Resolver.record_of_recording_error (Resolver.eq_of_answer hanswer)

/-- When compiling has ended with a node, the paths of the nodes before it are on record. -/
theorem contains_of_endsAt (h : EndsAt treatment resolver.recording nodes state front node e)
    (path : String) :
    (resolver.recording.callAll (asked (front ++ [node])) state).2.contains path ↔
      state.contains path ∨ path ∈ asked front := by
  -- the call for the last node, if there is one, has failed and left nothing behind
  have hsame := record_of_offends h.offends
  rw [← Resolver.contains_callAll_iff h.passes.answered, asked_append, Resolver.callAll_append]
  simp only [Recorded.contains, hsame]

/-- What a recorder holds after a plan has been compiled over it. -/
structure Replayable (treatment : Treatment) (resolver : Resolver σ) (o : Operand)
    (before : Recorded σ) (compiled : Outcome (Recorded σ) CompileError Filter) : Prop where
  /-- No entry has been changed or removed. -/
  grows : before.record.Within compiled.state.record
  /-- If the plan has a filter, the paths of all its comparisons have been added. -/
  complete : ∀ filter, compiled.result = .ok filter → ∀ path,
    compiled.state.contains path ↔ before.contains path ∨ path ∈ asked o.nodes
  /-- If compiling has ended with a node, the paths of the comparisons before it have. -/
  ended : ∀ e, compiled.result = .error e → ∃ front node,
    EndsAt treatment resolver.recording o.nodes before front node e ∧ ∀ path,
      compiled.state.contains path ↔ before.contains path ∨ path ∈ asked front
  /-- The strict map of the record leads to the same filter. -/
  strict : ∀ filter, compiled.result = .ok filter → ∀ (τ : Type) (other : τ),
    (o.compile treatment (FieldMap.ofList compiled.state.record.toList).toStrict.resolver).run
      other = ⟨.ok filter, compiled.log, other⟩
  /-- So does the recorder after any further use, which leaves it and the resolver as they are. -/
  again : ∀ filter, compiled.result = .ok filter → ∀ uses,
    let later := Use.afterAll resolver.recording uses compiled.state
    (o.compile treatment resolver.recording).run later = ⟨.ok filter, compiled.log, later⟩
  /-- The resolver is not called then. -/
  silent : ∀ filter, compiled.result = .ok filter → ∀ uses,
    let later := Use.afterAll resolver.recording uses compiled.state
    let uncalled : Recorded (σ × List String) := ⟨later.record, later.inner, []⟩
    (o.compile treatment resolver.traced.recording).run uncalled =
      ⟨.ok filter, compiled.log, uncalled⟩

/-- The record of a compilation holds the paths of the comparisons that it went past, and is enough
to repeat it. -/
theorem record_replays_compile (treatment : Treatment) (resolver : Resolver σ) (o : Operand)
    (before : Recorded σ) :
    Replayable treatment resolver o before
      ((o.compile treatment resolver.recording).run before) where
  grows := by
    rw [run_compile]
    exact Visit.within_compileAll treatment resolver o.visits before
  complete filter h path := by
    have hpasses := result_compile_ok_iff.1 ⟨filter, h⟩
    obtain ⟨_, _, hrun⟩ := run_compile_of_passes hpasses
    rw [hrun]
    exact Resolver.contains_callAll_iff hpasses.answered path
  ended e h := by
    obtain ⟨front, node, hends⟩ := result_compile_error_iff.1 h
    obtain ⟨_, hrun⟩ := run_compile_of_endsAt hends
    refine ⟨front, node, hends, fun path => ?_⟩
    rw [hrun]
    exact contains_of_endsAt hends path
  strict filter h τ other := run_compile_replay h (Resolver.replays_strict _ other)
  again filter h uses := by
    intro later
    -- what is used later only adds entries, so that it replays what the compilation left
    have hlater := resolver.within_afterAll uses
      ((o.compile treatment resolver.recording).run before).state
    exact run_compile_replay h ((resolver.replays_recording later).of_within hlater)
  silent filter h uses := by
    intro later uncalled
    have hlater := resolver.within_afterAll uses
      ((o.compile treatment resolver.recording).run before).state
    exact run_compile_replay h ((resolver.traced.replays_recording uncalled).of_within hlater)

end Operand

end AccessPlan
