import AccessPlan.Proofs.Mirror

/-!
# What a resolver is asked for

Compiling a plan asks the resolver for the paths of its comparisons, for each of them once and in
order. It stops asking at the first refusal and, where plans may be rejected, before the first dead
node.

* `Treatment.reached`: the nodes that are not behind a dead one. `Resolver.untilRefusal`: the calls
  that are made of those that are due.
* `Operand.state_compile`: compiling a plan is making these calls.
* `Operand.asks_once_per_comparison`: the calls, and the names of the fields they lead to.
-/

namespace AccessPlan

variable {σ : Type}

/-! ## The calls that are made -/

namespace Resolver

/-- The calls that are made of those that are due: one that is refused is the last. -/
def untilRefusal (resolver : Resolver σ) : List String → σ → List String
  | [], _ => []
  | path :: rest, state =>
    match resolver path state with
    | (.ok _, next) => path :: resolver.untilRefusal rest next
    | (.error _, _) => [path]

variable {resolver : Resolver σ} {state : σ}

theorem untilRefusal_append {paths : List String} (h : resolver.AnswersAll paths state)
    (rest : List String) :
    resolver.untilRefusal (paths ++ rest) state =
      paths ++ resolver.untilRefusal rest (resolver.callAll paths state).2 := by
  induction paths generalizing state with
  | nil => rfl
  | cons path paths ih =>
    obtain ⟨⟨field, hfield⟩, hrest⟩ := answersAll_cons_iff.1 h
    rw [List.cons_append, untilRefusal, eq_of_answer hfield, callAll_cons]
    exact congrArg (path :: ·) (ih hrest)

theorem untilRefusal_of_answersAll {paths : List String} (h : resolver.AnswersAll paths state) :
    resolver.untilRefusal paths state = paths := by
  have happend := untilRefusal_append h []
  rwa [List.append_nil, untilRefusal, List.append_nil] at happend

theorem untilRefusal_of_refused {path : String} {refusal : ResolveError}
    (h : (resolver path state).1 = .error refusal) (rest : List String) :
    resolver.untilRefusal (path :: rest) state = [path] := by
  rw [untilRefusal, eq_of_answer h]

/-- Keeping the calls does not change which ones are made. -/
theorem untilRefusal_noting (paths : List String) (state : σ) (history : History) :
    resolver.noting.untilRefusal paths (state, history) = resolver.untilRefusal paths state := by
  induction paths generalizing state history with
  | nil => rfl
  | cons path rest ih =>
    rw [untilRefusal, untilRefusal, noting]
    cases resolver path state with
    | mk answer next =>
      cases answer with
      | ok field => exact congrArg (path :: ·) (ih next _)
      | error e => rfl

end Resolver

namespace Treatment

/-- The nodes that compiling may come to: where plans may be rejected, those before the first dead
one. -/
def reached (treatment : Treatment) (nodes : List Operand) : List Operand :=
  match treatment with
  | .skip => nodes
  | .reject => nodes.takeWhile fun node => node.Alive

variable {treatment : Treatment}

theorem reached_append {front : List Operand}
    (h : treatment = .reject → ∀ node ∈ front, node.Alive) (back : List Operand) :
    treatment.reached (front ++ back) = front ++ treatment.reached back := by
  cases treatment with
  | skip => rfl
  | reject => exact List.takeWhile_append_of_pos (by simpa using h rfl)

theorem reached_of_alive {nodes : List Operand}
    (h : treatment = .reject → ∀ node ∈ nodes, node.Alive) : treatment.reached nodes = nodes := by
  have hnil : treatment.reached [] = [] := by cases treatment <;> rfl
  have happend := reached_append h []
  rwa [hnil, List.append_nil] at happend

theorem reached_reject_cons_of_dead {node : Operand} (h : node.Dead) (rest : List Operand) :
    reject.reached (node :: rest) = [] := by
  have hnot : ¬node.Alive := h
  rw [reached, List.takeWhile_cons_of_neg (by simpa using hnot)]

end Treatment

/-! ## Compiling -/

namespace Operand

variable {treatment : Treatment} {resolver : Resolver σ} {state : σ} {nodes before : List Operand}
  {node : Operand} {e : CompileError}

/-- If compiling gets past all nodes, all calls are made that are due. -/
theorem untilRefusal_of_passes (h : Passes treatment resolver nodes state) :
    resolver.untilRefusal (asked (treatment.reached nodes)) state = asked nodes := by
  rw [Treatment.reached_of_alive h.alive, Resolver.untilRefusal_of_answersAll h.answered]

/-- If compiling ends with a node, the calls are made that are due before it, and its own. -/
theorem untilRefusal_of_endsAt (h : EndsAt treatment resolver nodes state before node e) :
    resolver.untilRefusal (asked (treatment.reached nodes)) state = asked (before ++ [node]) := by
  obtain ⟨⟨after, rfl⟩, hpasses, hoffends⟩ := h
  rw [Treatment.reached_append hpasses.alive, asked_append, asked_append,
    Resolver.untilRefusal_append hpasses.answered]
  rcases hoffends.dead_or_refused with ⟨rfl, obstacle, ho, -⟩ |
    ⟨c, path, value, refusal, rfl, hrefused, -⟩
  · -- a dead node asks for nothing
    have hdead : node.Dead := dead_iff_obstacle?.2 ⟨obstacle, ho⟩
    rw [Treatment.reached_reject_cons_of_dead hdead, asked_of_obstacle? ho]
    rfl
  · -- a comparison that is refused is alive, and its call is the last one
    have halive : ∀ node ∈ [expression (.compare c) [.reference path, .literal value]],
        node.Alive := by simpa using Alive.comparison c path value
    rw [← List.singleton_append, Treatment.reached_append fun _ => halive, asked_append]
    exact congrArg (asked before ++ ·) (Resolver.untilRefusal_of_refused hrefused _)

/-- Compiling a plan leaves the resolver as the calls that are made for its nodes do. -/
theorem state_compile (treatment : Treatment) (resolver : Resolver σ) (o : Operand) (state : σ) :
    ((o.compile treatment resolver).run state).state =
      (resolver.callAll (resolver.untilRefusal (asked (treatment.reached o.nodes)) state)
        state).2 := by
  rcases passes_or_endsAt treatment resolver o.nodes state with h | ⟨before, node, e, h⟩
  · obtain ⟨filter, log, hrun⟩ := run_compile_of_passes h
    rw [hrun, untilRefusal_of_passes h]
  · obtain ⟨log, hrun⟩ := run_compile_of_endsAt h
    rw [hrun, untilRefusal_of_endsAt h]

/-- Compiling a plan asks for the paths of its comparisons, once for each and in order, up to a
refusal and before a node for which the plan is rejected. The answers are the names of the fields of
its filter. The calls are kept with their answers, which changes nothing else. -/
theorem asks_once_per_comparison (treatment : Treatment) (resolver : Resolver σ) (o : Operand)
    (state : σ) :
    let noted := (o.compile treatment resolver.noting).run (state, [])
    (o.compile treatment resolver).run state = ⟨noted.result, noted.log, noted.state.1⟩ ∧
      noted.state.2.paths = resolver.untilRefusal (asked (treatment.reached o.nodes)) state ∧
      ∀ filter, noted.result = .ok filter →
        noted.state.2.map Prod.snd = filter.fieldNames.map .ok := by
  refine ⟨run_compile_noting treatment resolver o state [], ?_, fun filter h => ?_⟩
  · rw [state_compile, Resolver.paths_callAll_noting, Resolver.untilRefusal_noting]
  · obtain ⟨calls, hcalls, hmirrors⟩ := leaves_compile h
    have hanswers := hmirrors.answers_eq
    rw [Filter.fieldNamesOf, Filter.fieldNamesOf, List.append_nil] at hanswers
    rw [hcalls, List.nil_append, hanswers]

end Operand

end AccessPlan
