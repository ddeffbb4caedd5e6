import AccessPlan.Proofs.Shape
import AccessPlan.Proofs.Simulation
import AccessPlan.Proofs.Traversal

/-!
# How compiling ends

Compiling goes through the nodes of a plan in order. It comes to the end of the list, or it ends
with an error at the first node that it cannot get past.

* `Operand.Offends`: a node with which compiling ends, and the error.
* `Operand.Passes`: nodes that compiling gets past. `Operand.EndsAt`: the first one that it does
  not.
* `Operand.passes_or_endsAt`: one or the other is the case.
* `Operand.run_compile_of_passes`, `run_compile_of_endsAt`: what is left in each case.
* `Operand.rejecting_ends_at_first_offence`: which plans are accepted where plans may be rejected,
  and the error of all others.
-/

namespace AccessPlan

namespace Operand

variable {σ : Type}

/-- A node of a wrong shape, and what is wrong with it. -/
inductive Malformed : Operand → String → Prop where
  | reference (path : String) : Malformed (.reference path) "leaf operand in expression position"
  | literal (value : Json) : Malformed (.literal value) "leaf operand in expression position"
  | unrecognized (raw : Json) : Malformed (.unrecognized raw) "unrecognized operand shape"
  | comparison (c : Comparison) {operands : List Operand}
      (h : ∀ path value, operands ≠ [.reference path, .literal value]) :
      Malformed (.expression (.compare c) operands)
        "comparison operands must be a variable followed by a value"

/-- A node with which compiling ends if it is reached in a state of the resolver, and the error. -/
inductive Offends (treatment : Treatment) (resolver : Resolver σ) (state : σ) :
    Operand → CompileError → Prop where
  /-- An operator without counterpart is named. Its operands do not matter. -/
  | unsupported (h : treatment = .reject) (tag : String) (operands : List Operand) :
      Offends treatment resolver state (.expression (.other tag) operands)
        (.untranslatable (.operator tag))
  /-- A node of a wrong shape is given the reason. -/
  | malformed (h : treatment = .reject) {node : Operand} {reason : String} {obstacle : Obstacle}
      (hnode : node.Malformed reason) (hreason : obstacle.reason? = some reason) :
      Offends treatment resolver state node (.untranslatable obstacle)
  /-- What the resolver refuses is refused with its error. -/
  | refused (c : Comparison) (path : String) (value : Json) {e : ResolveError}
      (h : (resolver path state).1 = .error e) :
      Offends treatment resolver state
        (.expression (.compare c) [.reference path, .literal value]) (.resolver e)

/-- Compiling gets past the nodes: none is dead unless it may be skipped, and the resolver answers
all that they ask for. -/
structure Passes (treatment : Treatment) (resolver : Resolver σ) (nodes : List Operand)
    (state : σ) : Prop where
  alive : treatment = .reject → ∀ node ∈ nodes, node.Alive
  answered : resolver.AnswersAll (asked nodes) state

/-- Compiling gets past the nodes before one, and ends with this one. -/
structure EndsAt (treatment : Treatment) (resolver : Resolver σ) (nodes : List Operand) (state : σ)
    (before : List Operand) (node : Operand) (e : CompileError) : Prop where
  listed : ∃ after, nodes = before ++ node :: after
  passes : Passes treatment resolver before state
  offends : Offends treatment resolver (resolver.callAll (asked before) state).2 node e

variable {treatment : Treatment} {resolver : Resolver σ} {state : σ} {nodes before : List Operand}
  {node : Operand} {e : CompileError}

/-! ## One node -/

theorem obstacle?_of_misshaped {c : Comparison} {operands : List Operand}
    (h : ∀ path value, operands ≠ [.reference path, .literal value]) :
    (expression (.compare c) operands).obstacle? = some .comparison := by
  rw [obstacle?]
  exact h

theorem obstacle?_of_malformed {reason : String} {obstacle : Obstacle} (h : node.Malformed reason)
    (hreason : obstacle.reason? = some reason) : node.obstacle? = some obstacle := by
  cases h with
  | comparison c hshape =>
    rw [obstacle?_of_misshaped hshape]
    cases obstacle <;> simp [Obstacle.reason?] at hreason ⊢
  | _ => cases obstacle <;> simp [Obstacle.reason?, obstacle?] at hreason ⊢

/-- Where plans may be rejected, a dead node offends. -/
theorem offends_of_obstacle? {obstacle : Obstacle} (h : node.obstacle? = some obstacle) :
    Offends .reject resolver state node (.untranslatable obstacle) := by
  unfold obstacle? at h
  split at h
  · cases h
  · cases h
  · cases h
  · rename_i c operands hshape
    obtain rfl := Option.some.inj h
    exact .malformed rfl (.comparison c fun path value heq => hshape path value heq) rfl
  · obtain rfl := Option.some.inj h
    exact .unsupported rfl _ _
  · obtain rfl := Option.some.inj h
    exact .malformed rfl (.reference _) rfl
  · obtain rfl := Option.some.inj h
    exact .malformed rfl (.literal _) rfl
  · obtain rfl := Option.some.inj h
    exact .malformed rfl (.unrecognized _) rfl

/-- A node that offends is a dead one where plans may be rejected, or a comparison that is
refused. -/
theorem Offends.dead_or_refused (h : Offends treatment resolver state node e) :
    (treatment = .reject ∧ ∃ obstacle, node.obstacle? = some obstacle ∧
        e = .untranslatable obstacle) ∨
      ∃ c path value refusal,
        node = .expression (.compare c) [.reference path, .literal value] ∧
          (resolver path state).1 = .error refusal ∧ e = .resolver refusal := by
  cases h with
  | unsupported ht tag operands => exact .inl ⟨ht, .operator tag, rfl, rfl⟩
  | malformed ht hnode hreason => exact .inl ⟨ht, _, obstacle?_of_malformed hnode hreason, rfl⟩
  | refused c path value hanswer => exact .inr ⟨c, path, value, _, rfl, hanswer, rfl⟩

/-- A dead node asks for nothing. -/
theorem asked_of_obstacle? {obstacle : Obstacle} (h : node.obstacle? = some obstacle) :
    asked [node] = [] := by
  have hnone : node.asked? = none := by
    unfold asked?
    split
    · cases h
    · rfl
  rw [asked, List.filterMap_cons_none hnone, List.filterMap_nil]

/-- Compiling gets past a node, or ends with it. -/
theorem passes_or_offends (treatment : Treatment) (resolver : Resolver σ) (node : Operand)
    (state : σ) :
    Passes treatment resolver [node] state ∨ ∃ e, Offends treatment resolver state node e := by
  cases h : node.obstacle? with
  | some obstacle =>
    cases treatment with
    | skip => exact .inl ⟨nofun, by rw [asked_of_obstacle? h]; exact Resolver.answersAll_nil state⟩
    | reject => exact .inr ⟨_, offends_of_obstacle? h⟩
  | none =>
    have halive := alive_iff_obstacle?.2 h
    have hnodes : treatment = .reject → ∀ p ∈ [node], p.Alive := by simpa using fun _ => halive
    cases halive with
    | and os => exact .inl ⟨hnodes, Resolver.answersAll_nil state⟩
    | or os => exact .inl ⟨hnodes, Resolver.answersAll_nil state⟩
    | comparison c path value =>
      cases hanswer : (resolver path state).1 with
      | ok field =>
        exact .inl ⟨hnodes, Resolver.answersAll_cons_iff.2
          ⟨⟨field, hanswer⟩, Resolver.answersAll_nil _⟩⟩
      | error refusal => exact .inr ⟨_, .refused c path value hanswer⟩

/-! ## Several nodes -/

theorem passes_nil : Passes treatment resolver [] state := ⟨by simp, Resolver.answersAll_nil state⟩

theorem passes_append_iff {front back : List Operand} :
    Passes treatment resolver (front ++ back) state ↔
      Passes treatment resolver front state ∧
        Passes treatment resolver back (resolver.callAll (asked front) state).2 := by
  constructor
  · rintro ⟨halive, hanswered⟩
    rw [asked_append] at hanswered
    obtain ⟨hfront, hback⟩ := Resolver.answersAll_append_iff.1 hanswered
    exact ⟨⟨fun ht p hp => halive ht p (List.mem_append_left _ hp), hfront⟩,
      ⟨fun ht p hp => halive ht p (List.mem_append_right _ hp), hback⟩⟩
  · rintro ⟨hfront, hback⟩
    refine ⟨fun ht => List.forall_mem_append.2 ⟨hfront.alive ht, hback.alive ht⟩, ?_⟩
    rw [asked_append]
    exact Resolver.answersAll_append_iff.2 ⟨hfront.answered, hback.answered⟩

/-- Compiling gets past all of the nodes, or ends with one of them. -/
theorem passes_or_endsAt (treatment : Treatment) (resolver : Resolver σ) (nodes : List Operand)
    (state : σ) :
    Passes treatment resolver nodes state ∨
      ∃ before node e, EndsAt treatment resolver nodes state before node e := by
  induction nodes generalizing state with
  | nil => exact .inl passes_nil
  | cons first rest ih =>
    rcases passes_or_offends treatment resolver first state with hfirst | ⟨e, hfirst⟩
    · rcases ih (resolver.callAll (asked [first]) state).2 with hrest | ⟨before, node, e, hrest⟩
      · exact .inl (passes_append_iff.2 ⟨hfirst, hrest⟩)
      · obtain ⟨⟨after, rfl⟩, hbefore, hoffends⟩ := hrest
        refine .inr ⟨first :: before, node, e, ⟨after, rfl⟩,
          passes_append_iff.2 ⟨hfirst, hbefore⟩, ?_⟩
        -- what `rest` ends with is reached after the calls of the first node
        rw [← List.singleton_append, asked_append, Resolver.callAll_append]
        exact hoffends
    · exact .inr ⟨[], first, e, ⟨rest, rfl⟩, passes_nil, hfirst⟩

/-! ## What is left -/

/-- A node that compiling gets past leaves the resolver in the state after what it asks for. -/
theorem run_visit_of_passes (h : Passes treatment resolver [node] state) :
    ∃ filters log, (Visit.compileAll treatment resolver ([node].filterMap visit?)).run state =
      ⟨.ok filters, log, (resolver.callAll (asked [node]) state).2⟩ := by
  cases ho : node.obstacle? with
  | some obstacle =>
    cases treatment with
    | skip =>
      rw [List.filterMap_cons_some (visit?_of_obstacle? ho), asked_of_obstacle? ho]
      exact ⟨_, _, Visit.run_compileAll_meet_skip⟩
    | reject =>
      have halive := h.alive rfl node List.mem_cons_self
      rw [alive_iff_obstacle?, ho] at halive
      cases halive
  | none =>
    cases alive_iff_obstacle?.2 ho with
    | and os => exact ⟨[], [], rfl⟩
    | or os => exact ⟨[], [], rfl⟩
    | comparison c path value =>
      obtain ⟨⟨field, hfield⟩, -⟩ := Resolver.answersAll_cons_iff.1 h.answered
      exact ⟨[.field field (c.condition value)], [],
        Visit.run_compileAll_ask_ok (Resolver.eq_of_answer hfield)⟩

/-- A node with which compiling ends gives its error, and nothing is asked for after it. -/
theorem run_visit_of_offends (h : Offends treatment resolver state node e) (rest : List Visit) :
    (Visit.compileAll treatment resolver ([node].filterMap visit? ++ rest)).run state =
      ⟨.error e, [], (resolver.callAll (asked [node]) state).2⟩ := by
  rcases h.dead_or_refused with ⟨rfl, obstacle, ho, rfl⟩ |
    ⟨c, path, value, refusal, rfl, hanswer, rfl⟩
  · rw [List.filterMap_cons_some (visit?_of_obstacle? ho), asked_of_obstacle? ho]
    exact Visit.run_compileAll_meet_reject
  · exact Visit.run_compileAll_ask_error (Resolver.eq_of_answer hanswer)

theorem run_visits_of_passes (h : Passes treatment resolver nodes state) :
    ∃ filters log, (Visit.compileAll treatment resolver (nodes.filterMap visit?)).run state =
      ⟨.ok filters, log, (resolver.callAll (asked nodes) state).2⟩ := by
  induction nodes generalizing state with
  | nil => exact ⟨[], [], rfl⟩
  | cons node rest ih =>
    rw [← List.singleton_append] at h ⊢
    obtain ⟨hnode, hrest⟩ := passes_append_iff.1 h
    obtain ⟨filters, log, hfirst⟩ := run_visit_of_passes hnode
    obtain ⟨others, more, hlater⟩ := ih hrest
    rw [List.filterMap_append, Visit.run_compileAll_append_ok hfirst, hlater, asked_append,
      Resolver.callAll_append]
    exact ⟨_, _, rfl⟩

theorem run_visits_of_endsAt (h : EndsAt treatment resolver nodes state before node e) :
    ∃ log, (Visit.compileAll treatment resolver (nodes.filterMap visit?)).run state =
      ⟨.error e, log, (resolver.callAll (asked (before ++ [node])) state).2⟩ := by
  obtain ⟨⟨after, rfl⟩, hpasses, hoffends⟩ := h
  obtain ⟨filters, log, hbefore⟩ := run_visits_of_passes hpasses
  rw [← List.singleton_append, List.filterMap_append, List.filterMap_append,
    Visit.run_compileAll_append_ok hbefore, run_visit_of_offends hoffends, asked_append,
    Resolver.callAll_append]
  exact ⟨_, rfl⟩

variable {o : Operand}

/-- A plan whose nodes compiling gets past has a filter. -/
theorem run_compile_of_passes (h : Passes treatment resolver o.nodes state) :
    ∃ filter log, (o.compile treatment resolver).run state =
      ⟨.ok filter, log, (resolver.callAll (asked o.nodes) state).2⟩ := by
  obtain ⟨filters, log, hvisits⟩ := run_visits_of_passes h
  rw [run_compile, visits_eq_filterMap, hvisits]
  exact ⟨_, _, rfl⟩

/-- A plan that ends with a node has its error, and nothing is asked for after this node. -/
theorem run_compile_of_endsAt (h : EndsAt treatment resolver o.nodes state before node e) :
    ∃ log, (o.compile treatment resolver).run state =
      ⟨.error e, log, (resolver.callAll (asked (before ++ [node])) state).2⟩ := by
  obtain ⟨log, hvisits⟩ := run_visits_of_endsAt h
  rw [run_compile, visits_eq_filterMap, hvisits]
  exact ⟨_, rfl⟩

theorem result_compile_ok_iff :
    (∃ filter, ((o.compile treatment resolver).run state).result = .ok filter) ↔
      Passes treatment resolver o.nodes state := by
  constructor
  · rintro ⟨filter, hok⟩
    rcases passes_or_endsAt treatment resolver o.nodes state with h | ⟨before, node, e, h⟩
    · exact h
    · obtain ⟨log, hrun⟩ := run_compile_of_endsAt h
      rw [hrun] at hok
      cases hok
  · intro h
    obtain ⟨filter, log, hrun⟩ := run_compile_of_passes h
    exact ⟨filter, by rw [hrun]⟩

theorem result_compile_error_iff :
    ((o.compile treatment resolver).run state).result = .error e ↔
      ∃ before node, EndsAt treatment resolver o.nodes state before node e := by
  constructor
  · intro herror
    rcases passes_or_endsAt treatment resolver o.nodes state with h | ⟨before, node, e', h⟩
    · obtain ⟨filter, log, hrun⟩ := run_compile_of_passes h
      rw [hrun] at herror
      cases herror
    · obtain ⟨log, hrun⟩ := run_compile_of_endsAt h
      rw [hrun] at herror
      obtain rfl : e' = e := Except.error.inj herror
      exact ⟨before, node, h⟩
  · rintro ⟨before, node, h⟩
    obtain ⟨log, hrun⟩ := run_compile_of_endsAt h
    rw [hrun]

/-! ## The first offence -/

/-- Keeping the calls of a resolver does not change with which node compiling ends. -/
theorem EndsAt.traced (h : EndsAt treatment resolver nodes state before node e)
    (calls : List String) :
    EndsAt treatment resolver.traced nodes (state, calls) before node e := by
  obtain ⟨hlisted, ⟨halive, hanswered⟩, hoffends⟩ := h
  refine ⟨hlisted, ⟨halive, ?_⟩, ?_⟩
  · rwa [Resolver.AnswersAll, Resolver.callAll_traced]
  · rw [Resolver.callAll_traced]
    cases hoffends with
    | unsupported ht tag operands => exact .unsupported ht tag operands
    | malformed ht hnode hreason => exact .malformed ht hnode hreason
    | refused c path value hanswer => exact .refused c path value hanswer

/-- How compiling a plan ends, over a resolver that is in some state. -/
structure Ending (resolver : Resolver σ) (o : Operand) (state : σ) : Prop where
  /-- Where plans may be rejected, those are accepted that have no dead node and whose comparisons
  the resolver answers one after the other. -/
  accepts : (∃ filter, ((o.compile .reject resolver).run state).result = .ok filter) ↔
    o.AllAlive ∧ resolver.AnswersAll (asked o.nodes) state
  /-- Their filters are nowhere without constraint. -/
  constrains : ∀ filter, ((o.compile .reject resolver).run state).result = .ok filter →
    ∀ position, filter.node? position ≠ some .empty
  /-- All others are rejected with the error of the first node that offends. -/
  reports : ∀ e, ((o.compile .reject resolver).run state).result = .error e ↔
    ∃ before node, EndsAt .reject resolver o.nodes state before node e
  /-- Only an operator without counterpart is reported as one. -/
  names : ∀ before node tag,
    EndsAt .reject resolver o.nodes state before node (.untranslatable (.operator tag)) →
      ∃ operands, node = .expression (.other tag) operands
  /-- The resolver is called for the nodes up to this one, and not after it. -/
  stops : ∀ before node e, EndsAt .reject resolver o.nodes state before node e →
    ∃ log, (o.compile .reject resolver.traced).run (state, []) =
      ⟨.error e, log, (resolver.callAll (asked (before ++ [node])) state).2,
        (asked (before ++ [node])).reverse⟩
  /-- Where dead nodes are skipped, compiling ends only with the first comparison that the resolver
  refuses, and with the error that it is refused with. -/
  skips : ∀ e, ((o.compile .skip resolver).run state).result = .error e ↔
    ∃ before c path value refusal,
      EndsAt .skip resolver o.nodes state before
          (.expression (.compare c) [.reference path, .literal value]) e ∧
        (resolver path (resolver.callAll (asked before) state).2).1 = .error refusal ∧
        e = .resolver refusal

/-- Where plans may be rejected, the supported ones are accepted, and of any other plan the first
node that offends is reported. -/
theorem rejecting_ends_at_first_offence (resolver : Resolver σ) (o : Operand) (state : σ) :
    Ending resolver o state where
  accepts := by
    rw [result_compile_ok_iff, allAlive_iff]
    exact ⟨fun h => ⟨h.alive rfl, h.answered⟩, fun h => ⟨fun _ => h.1, h.2⟩⟩
  constrains _ h := node?_ne_empty_of_reject h
  reports _ := result_compile_error_iff
  names before node tag h := by
    cases h.offends with
    | unsupported ht tag operands => exact ⟨operands, rfl⟩
    | malformed ht hnode hreason => cases hreason
  stops before node e h := by
    obtain ⟨log, hrun⟩ := run_compile_of_endsAt (h.traced [])
    rw [Resolver.callAll_traced, List.append_nil] at hrun
    exact ⟨log, hrun⟩
  skips e := by
    rw [result_compile_error_iff]
    constructor
    · rintro ⟨before, node, h⟩
      rcases h.offends.dead_or_refused with ⟨ht, -⟩ | ⟨c, path, value, refusal, rfl, hanswer, he⟩
      · cases ht
      · exact ⟨before, c, path, value, refusal, h, hanswer, he⟩
    · rintro ⟨before, c, path, value, refusal, h, -⟩
      exact ⟨before, _, h⟩

end Operand

end AccessPlan
