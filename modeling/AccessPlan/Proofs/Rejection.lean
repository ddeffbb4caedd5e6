import AccessPlan.Proofs.Simulation

/-!
# Rejecting is skipping cut off

Over the same resolver, the run that rejects goes along with the run that skips up to the first node
without filter. There it ends, in the state and with the calls that the skipping run has reached.

* `CutOff`: how the outcome of rejecting follows from the run that skips.
* `CompileError.Answers`: an error that says what a line of the log says.
* `Visit.cutOff_compileAll`: by induction over the visits, one visit at a time (`CutOff.ask`,
  `CutOff.meet`).
* `Operand.rejecting_cuts_skipping_off`: the same of a plan, for the state of any resolver and for
  its calls (`Operand.SkippingCutOff`).
-/

namespace AccessPlan

/-- An error that names the operator of a warning, or the reason of a remark on a malformed node. -/
def CompileError.Answers (e : CompileError) (line : LogLine) : Prop :=
  (∃ tag, e = .untranslatable (.operator tag) ∧ line.level = .warn ∧
    line.fields = [("operator", tag)]) ∨
  ∃ obstacle reason, e = .untranslatable obstacle ∧ obstacle.reason? = some reason ∧
    line.level = .debug ∧ line.fields = [("reason", reason)]

theorem CompileError.answers_line_skipped (obstacle : Obstacle) :
    (CompileError.untranslatable obstacle).Answers (LogEntry.skipped obstacle).line := by
  cases obstacle with
  | operator tag => exact .inl ⟨tag, rfl, rfl, rfl⟩
  | leaf => exact .inr ⟨.leaf, _, rfl, rfl, rfl, rfl⟩
  | unrecognized => exact .inr ⟨.unrecognized, _, rfl, rfl, rfl, rfl⟩
  | comparison => exact .inr ⟨.comparison, _, rfl, rfl, rfl, rfl⟩

/-- How the outcome of rejecting follows from that of skipping, for visits from a state. -/
structure CutOff {σ α : Type} (resolver : Resolver σ) (state : σ) (visits : List Visit)
    (skip reject : Outcome σ CompileError α) : Prop where
  /-- Skipping logs the nodes that it skips and nothing else. -/
  entries : ∀ entry ∈ skip.log, ∃ obstacle, entry = .skipped obstacle
  /-- Rejecting logs nothing. -/
  silent : reject.log = []
  /-- If nothing is skipped, there is no difference. -/
  same : skip.log = [] → reject = skip
  /-- Otherwise the visits before the first skipped node take the resolver to the state in which
  rejecting ends, and skipping goes on from there. -/
  cut : ∀ obstacle rest, skip.log = .skipped obstacle :: rest →
    (∃ e, reject.result = .error e ∧ e.Answers (LogEntry.skipped obstacle).line) ∧
    ∃ before after filters, visits = before ++ .meet obstacle :: after ∧
      (Visit.compileAll .skip resolver before).run state = ⟨.ok filters, [], reject.state⟩ ∧
      ((Visit.compileAll .skip resolver after).run reject.state).log = rest ∧
      ((Visit.compileAll .skip resolver after).run reject.state).state = skip.state

namespace CutOff

variable {σ α β : Type} {resolver : Resolver σ} {state after : σ} {visits : List Visit}
  {skip reject : Outcome σ CompileError α}

/-- Without a skipped node both runs are one. -/
theorem of_log_eq_nil (h : skip.log = []) : CutOff resolver state visits skip skip where
  entries entry he := by
    rw [h] at he
    cases he
  silent := h
  same _ := rfl
  cut obstacle rest hlog := by
    rw [h] at hlog
    cases hlog

theorem map (f : α → β) (h : CutOff resolver state visits skip reject) :
    CutOff resolver state visits ⟨skip.result.map f, skip.log, skip.state⟩
      ⟨reject.result.map f, reject.log, reject.state⟩ where
  entries := h.entries
  silent := h.silent
  same hlog := by rw [h.same hlog]
  cut obstacle rest hlog := by
    obtain ⟨⟨e, he, hanswers⟩, hreached⟩ := h.cut obstacle rest hlog
    exact ⟨⟨e, by rw [he]; rfl, hanswers⟩, hreached⟩

/-- A call that is answered comes before the cut. -/
theorem ask {c : Comparison} {path field : String} {value : Json}
    (hcall : resolver path state = (.ok field, after))
    (h : CutOff resolver after visits skip reject) :
    CutOff resolver state (.ask c path value :: visits) skip reject where
  entries := h.entries
  silent := h.silent
  same := h.same
  cut obstacle rest hlog := by
    obtain ⟨herror, before, later, filters, rfl, hbefore, hlater⟩ := h.cut obstacle rest hlog
    refine ⟨herror, .ask c path value :: before, later,
      .field field (c.condition value) :: filters, rfl, ?_, hlater⟩
    rw [Visit.run_compileAll_ask_ok hcall, hbefore]
    rfl

/-- A node that is skipped is the cut. -/
theorem meet {obstacle : Obstacle} {filters : Except CompileError β}
    (hentries : ∀ entry ∈ ((Visit.compileAll .skip resolver visits).run state).log,
      ∃ obstacle, entry = .skipped obstacle) :
    let later := (Visit.compileAll .skip resolver visits).run state
    CutOff resolver state (.meet obstacle :: visits)
      ⟨filters, .skipped obstacle :: later.log, later.state⟩
      ⟨.error (.untranslatable obstacle), [], state⟩ where
  entries entry he := by
    rcases List.mem_cons.1 he with rfl | he
    · exact ⟨obstacle, rfl⟩
    · exact hentries entry he
  silent := rfl
  same hlog := nomatch hlog
  cut first rest hlog := by
    obtain ⟨hfirst, rfl⟩ := List.cons.inj hlog
    obtain rfl : obstacle = first := LogEntry.skipped.inj hfirst
    exact ⟨⟨_, rfl, CompileError.answers_line_skipped obstacle⟩, [], visits, [], rfl, rfl, rfl, rfl⟩

end CutOff

variable {σ : Type}

theorem Visit.cutOff_compileAll (resolver : Resolver σ) (visits : List Visit) (state : σ) :
    CutOff resolver state visits ((compileAll .skip resolver visits).run state)
      ((compileAll .reject resolver visits).run state) := by
  induction visits generalizing state with
  | nil => exact .of_log_eq_nil rfl
  | cons v rest ih =>
    -- up to the first node that is met both runs take the same steps
    cases v with
    | ask c path value =>
      rcases hcall : resolver path state with ⟨answer, after⟩
      cases answer with
      | ok field =>
        rw [run_compileAll_ask_ok hcall, run_compileAll_ask_ok hcall]
        exact ((ih after).map _).ask hcall
      | error e =>
        rw [run_compileAll_ask_error hcall, run_compileAll_ask_error hcall]
        exact .of_log_eq_nil rfl
    | meet obstacle =>
      rw [run_compileAll_meet_skip, run_compileAll_meet_reject]
      exact .meet (ih state).entries

theorem Operand.cutOff_compile (resolver : Resolver σ) (o : Operand) (state : σ) :
    CutOff resolver state o.visits ((o.compile .skip resolver).run state)
      ((o.compile .reject resolver).run state) := by
  rw [run_compile, run_compile]
  exact (Visit.cutOff_compileAll resolver o.visits state).map o.assemble

/-- How rejecting a plan follows from skipping its nodes, over a resolver from a state. -/
structure Operand.SkippingCutOff (resolver : Resolver σ) (o : Operand) (state : σ) : Prop where
  outcomes : CutOff resolver state o.visits ((o.compile .skip resolver).run state)
    ((o.compile .reject resolver).run state)
  /-- The same with the calls of the resolver kept in its state. -/
  calls : CutOff resolver.traced (state, []) o.visits
    ((o.compile .skip resolver.traced).run (state, []))
    ((o.compile .reject resolver.traced).run (state, []))
  /-- Keeping the calls changes nothing else. -/
  plain : ∀ treatment, (o.compile treatment resolver).run state =
    let traced := (o.compile treatment resolver.traced).run (state, [])
    ⟨traced.result, traced.log, traced.state.1⟩
  /-- Skipping is a run through the visits of the plan. -/
  visits : o.compile .skip resolver = o.assemble <$> Visit.compileAll .skip resolver o.visits

/-- Rejecting is skipping cut off at the first node that is skipped: in the state of the resolver,
and with its calls kept in that state. -/
theorem Operand.rejecting_cuts_skipping_off (resolver : Resolver σ) (o : Operand) (state : σ) :
    SkippingCutOff resolver o state where
  outcomes := cutOff_compile resolver o state
  calls := cutOff_compile resolver.traced o (state, [])
  plain treatment := run_compile_traced treatment resolver o state []
  visits := compile_eq_visits .skip resolver o

-- the run that rejects ends where the other one writes its first line, after one of two calls
example :
    let plan := Operand.expression .or [.comparison (.compare (.relate .equal)) "owner" (.str "me"),
      .expression (.other "like") [.reference "name"], .literal .null,
      .comparison (.compare (.relate .less)) "age" (.bool true)]
    let resolver : Resolver (Unit × List String) := Resolver.identity.traced
    let skipping := (plan.compile .skip resolver).run ((), [])
    let rejecting := (plan.compile .reject resolver).run ((), [])
    skipping.log = [.skipped (.operator "like"), .skipped .leaf] ∧
      skipping.state.2 = ["age", "owner"] ∧
      rejecting.result = .error (.untranslatable (.operator "like")) ∧
      rejecting.log = [] ∧ rejecting.state.2 = ["owner"] :=
  ⟨rfl, rfl, rfl, rfl, rfl⟩

end AccessPlan
