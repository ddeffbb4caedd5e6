import AccessPlan.Proofs.Decision
import AccessPlan.Proofs.Endings

/-!
# Uses of a resolver

A resolver is called, and plans and responses are compiled over it, in any order. Whatever it is
used for, it sees calls in a row and nothing else.

* `Use`: one call, or the compilation of a plan or of a response. `Use.afterAll`: the state of the
  resolver after several uses. `Use.answers`: what they give.
* `Use.exists_calls`: every use is a number of calls in a row, and so are several.
* `Use.afterAll_related`, `Use.answers_related`: resolvers that answer alike can be used alike.
* `History`: calls and their answers. `Resolver.noting`: a resolver that keeps them.
  `Resolver.Simulates.noting`: resolvers that answer alike keep the same.
* `Resolver.callAll_noting_cut`, `Resolver.afterAll_noting_cut`: a history can be cut anywhere, and
  the calls before the cut lead to the point of the cut.
-/

namespace AccessPlan

variable {σ τ : Type}

/-! ## Uses -/

/-- Something that a resolver is used for. -/
inductive Use where
  /-- The field of a path is asked for. -/
  | call (path : String)
  /-- A plan is compiled. -/
  | plan (treatment : Treatment) (o : Operand)
  /-- A response is compiled. -/
  | response (treatment : Treatment) (r : Response)

namespace Use

/-- The state of a resolver after a use. -/
def after (resolver : Resolver σ) : Use → σ → σ
  | .call path, state => (resolver path state).2
  | .plan treatment o, state => ((o.compile treatment resolver).run state).state
  | .response treatment r, state => ((r.compile treatment resolver).run state).state

/-- The state of a resolver after uses in a row. -/
def afterAll (resolver : Resolver σ) : List Use → σ → σ
  | [], state => state
  | use :: rest, state => afterAll resolver rest (use.after resolver state)

/-- What a use gives. -/
inductive Answer where
  /-- The field of a path, or why it has none. -/
  | field (answer : Except ResolveError String)
  /-- The filter of a plan or of a response, or why there is none, and what went to the log. -/
  | filter (result : Except CompileError Filter) (log : List LogEntry)

/-- What an outcome tells apart from the state. -/
def Answer.ofOutcome (outcome : Outcome σ CompileError Filter) : Answer :=
  .filter outcome.result outcome.log

/-- What a use gives, from a state of the resolver. -/
def answer (resolver : Resolver σ) : Use → σ → Answer
  | .call path, state => .field (resolver path state).1
  | .plan treatment o, state => .ofOutcome ((o.compile treatment resolver).run state)
  | .response treatment r, state => .ofOutcome ((r.compile treatment resolver).run state)

/-- What uses in a row give. -/
def answers (resolver : Resolver σ) : List Use → σ → List Answer
  | [], _ => []
  | use :: rest, state =>
    use.answer resolver state :: answers resolver rest (use.after resolver state)

/-- Compiling a plan is a number of calls in a row. -/
theorem exists_calls_plan (resolver : Resolver σ) (treatment : Treatment) (o : Operand)
    (state : σ) :
    ∃ paths, (Use.plan treatment o).after resolver state = (resolver.callAll paths state).2 := by
  rcases Operand.passes_or_endsAt treatment resolver o.nodes state with h | ⟨before, node, e, h⟩
  · obtain ⟨filter, log, hrun⟩ := Operand.run_compile_of_passes h
    exact ⟨Operand.asked o.nodes, by rw [after, hrun]⟩
  · obtain ⟨log, hrun⟩ := Operand.run_compile_of_endsAt h
    exact ⟨Operand.asked (before ++ [node]), by rw [after, hrun]⟩

/-- Every use is a number of calls in a row. -/
theorem exists_calls (resolver : Resolver σ) (use : Use) (state : σ) :
    ∃ paths, use.after resolver state = (resolver.callAll paths state).2 := by
  cases use with
  | call path => exact ⟨[path], rfl⟩
  | plan treatment o => exact exists_calls_plan resolver treatment o state
  | response treatment r =>
    cases hkind : r.kind with
    | alwaysDenied =>
      exact ⟨[], by rw [after, Response.run_compile_alwaysDenied _ _ _ hkind]; rfl⟩
    | alwaysAllowed =>
      exact ⟨[], by rw [after, Response.run_compile_alwaysAllowed _ _ _ hkind]; rfl⟩
    | conditional =>
      cases hfilter : r.filter with
      | none =>
        exact ⟨[], by rw [after, Response.run_compile_missingCondition _ _ _ hkind hfilter]; rfl⟩
      | some plan =>
        rw [after, Response.run_compile_conditional _ _ _ hkind hfilter]
        exact exists_calls_plan resolver treatment plan state

theorem exists_calls_afterAll (resolver : Resolver σ) (uses : List Use) (state : σ) :
    ∃ paths, afterAll resolver uses state = (resolver.callAll paths state).2 := by
  induction uses generalizing state with
  | nil => exact ⟨[], rfl⟩
  | cons use rest ih =>
    obtain ⟨paths, hfirst⟩ := exists_calls resolver use state
    obtain ⟨others, hrest⟩ := ih (use.after resolver state)
    exact ⟨paths ++ others, by rw [afterAll, hrest, Resolver.callAll_append, hfirst]⟩

variable {R : σ → τ → Prop} {p : Resolver σ} {q : Resolver τ}

/-- Uses lead resolvers that answer alike from related states to related states. -/
theorem after_related (hpq : p.Simulates R q) (use : Use) {s : σ} {t : τ} (h : R s t) :
    R (use.after p s) (use.after q t) := by
  cases use with
  | call path => exact (hpq path s t h).2
  | plan treatment o => exact (Operand.compile_simulates hpq treatment o s t h).2.2
  | response treatment r => exact (Response.compile_simulates hpq treatment r s t h).2.2

theorem afterAll_related (hpq : p.Simulates R q) (uses : List Use) {s : σ} {t : τ} (h : R s t) :
    R (afterAll p uses s) (afterAll q uses t) := by
  induction uses generalizing s t with
  | nil => exact h
  | cons use rest ih => exact ih (after_related hpq use h)

/-- Uses give the same over resolvers that answer alike from related states. -/
theorem answer_related (hpq : p.Simulates R q) (use : Use) {s : σ} {t : τ} (h : R s t) :
    use.answer p s = use.answer q t := by
  cases use with
  | call path => exact congrArg Answer.field (hpq path s t h).1
  | plan treatment o =>
    obtain ⟨hresult, hlog, -⟩ := Operand.compile_simulates hpq treatment o s t h
    rw [answer, answer, Answer.ofOutcome, hresult, hlog]
    rfl
  | response treatment r =>
    obtain ⟨hresult, hlog, -⟩ := Response.compile_simulates hpq treatment r s t h
    rw [answer, answer, Answer.ofOutcome, hresult, hlog]
    rfl

theorem answers_related (hpq : p.Simulates R q) (uses : List Use) {s : σ} {t : τ} (h : R s t) :
    answers p uses s = answers q uses t := by
  induction uses generalizing s t with
  | nil => rfl
  | cons use rest ih =>
    rw [answers, answers, answer_related hpq use h, ih (after_related hpq use h)]

end Use

/-! ## Calls and their answers -/

/-- Calls of a resolver with their answers, in order. -/
abbrev History := List (String × Except ResolveError String)

namespace History

/-- The paths of the calls. -/
def paths (history : History) : List String := history.map Prod.fst

/-- The first field that was answered for a path. -/
def field? (history : History) (path : String) : Option String :=
  history.findSome? fun (asked, answer) => if asked = path then answer.toOption else none

/-- The paths of the calls that were answered with a field. -/
def resolved (history : History) : List String :=
  history.filterMap fun (path, answer) => answer.toOption.map fun _ => path

variable {history : History} {path asked field : String}

theorem field?_concat_error (e : ResolveError) :
    History.field? (history ++ [(asked, .error e)]) path = history.field? path := by
  simp [field?, List.findSome?_append, Except.toOption]

theorem field?_concat_ok :
    History.field? (history ++ [(asked, .ok field)]) path =
      (history.field? path).or (if asked = path then some field else none) := by
  simp only [field?, List.findSome?_append, List.findSome?_cons, List.findSome?_nil,
    Except.toOption]
  by_cases h : asked = path <;> simp [h]

theorem resolved_concat_error (e : ResolveError) :
    History.resolved (history ++ [(asked, .error e)]) = history.resolved := by
  simp [resolved, Except.toOption]

theorem resolved_concat_ok :
    History.resolved (history ++ [(asked, .ok field)]) = history.resolved ++ [asked] := by
  simp [resolved, Except.toOption]

theorem mem_resolved_iff : path ∈ history.resolved ↔ ∃ field, (path, .ok field) ∈ history := by
  simp only [resolved, List.mem_filterMap]
  constructor
  · rintro ⟨⟨asked, answer⟩, hmem, h⟩
    cases answer with
    | error e => cases h
    | ok field =>
      obtain rfl : asked = path := Option.some.inj h
      exact ⟨field, hmem⟩
  · rintro ⟨field, hmem⟩
    exact ⟨(path, .ok field), hmem, rfl⟩

theorem isSome_field?_iff : (history.field? path).isSome ↔ path ∈ history.resolved := by
  simp only [field?, resolved, List.findSome?_isSome_iff, List.mem_filterMap]
  refine exists_congr fun call => and_congr_right fun _ => ?_
  obtain ⟨asked, answer⟩ := call
  cases answer with
  | error e => simp [Except.toOption]
  | ok field => simp [Except.toOption]

end History

namespace Resolver

/-- The resolver together with the calls that it answered. -/
def noting (resolver : Resolver σ) : Resolver (σ × History) :=
  fun path (state, history) =>
    let (answer, state') := resolver path state
    (answer, state', history ++ [(path, answer)])

variable {resolver : Resolver σ}

theorem noting_of_eq {path : String} {state state' : σ} {answer : Except ResolveError String}
    (h : resolver path state = (answer, state')) (history : History) :
    resolver.noting path (state, history) = (answer, state', history ++ [(path, answer)]) := by
  rw [noting, h]

theorem simulates_noting (resolver : Resolver σ) :
    resolver.Simulates (fun state (noted : σ × History) => state = noted.1) resolver.noting := by
  rintro path s ⟨t, history⟩ rfl
  exact ⟨rfl, rfl⟩

/-- Resolvers that answer alike answer calls in a row alike. -/
theorem Simulates.callAll {R : σ → τ → Prop} {q : Resolver τ} (h : resolver.Simulates R q)
    (paths : List String) {s : σ} {t : τ} (hst : R s t) :
    (resolver.callAll paths s).1 = (q.callAll paths t).1 ∧
      R (resolver.callAll paths s).2 (q.callAll paths t).2 := by
  induction paths generalizing s t with
  | nil => exact ⟨rfl, hst⟩
  | cons path rest ih =>
    obtain ⟨hanswer, hnext⟩ := h path s t hst
    obtain ⟨hanswers, hlast⟩ := ih hnext
    refine ⟨?_, hlast⟩
    simp only [callAll_cons, hanswer, hanswers]

/-- Their calls and answers are the same when they are kept. -/
theorem Simulates.noting {R : σ → τ → Prop} {q : Resolver τ} (h : resolver.Simulates R q) :
    resolver.noting.Simulates (fun s t => R s.1 t.1 ∧ s.2 = t.2) q.noting := by
  rintro path ⟨s, history⟩ ⟨t, _⟩ ⟨hst, rfl⟩
  obtain ⟨hanswer, hnext⟩ := h path s t hst
  rw [noting_of_eq rfl, noting_of_eq rfl, hanswer]
  exact ⟨rfl, hnext, rfl⟩

theorem length_callAll (paths : List String) (state : σ) :
    (resolver.callAll paths state).1.length = paths.length := by
  induction paths generalizing state with
  | nil => rfl
  | cons path rest ih => rw [callAll_cons, List.length_cons, List.length_cons, ih]

/-- Keeping the calls changes no answer. -/
theorem callAll_noting (paths : List String) (state : σ) (history : History) :
    resolver.noting.callAll paths (state, history) =
      let plain := resolver.callAll paths state
      (plain.1, plain.2, history ++ paths.zip plain.1) := by
  induction paths generalizing state history with
  | nil => simp
  | cons path rest ih =>
    rw [callAll_cons, noting_of_eq rfl, ih]
    simp [callAll_cons]

/-- The calls that a resolver keeps are those that were made. -/
theorem paths_callAll_noting (paths : List String) (state : σ) :
    (resolver.noting.callAll paths (state, [])).2.2.paths = paths := by
  simp only [callAll_noting, List.nil_append]
  exact List.map_fst_zip (Nat.le_of_eq (length_callAll paths state).symm)

/-- The calls before a cut lead to the point at which exactly they have been made, and the calls
after the cut lead from there to the end. -/
theorem callAll_noting_cut {paths : List String} {state : σ} {earlier later : History}
    (h : (resolver.noting.callAll paths (state, [])).2.2 = earlier ++ later) :
    (resolver.noting.callAll earlier.paths (state, [])).2.2 = earlier ∧
      (resolver.noting.callAll later.paths
        (resolver.noting.callAll earlier.paths (state, [])).2).2 =
          (resolver.noting.callAll paths (state, [])).2 := by
  -- the paths are cut where the history is, as each call is kept with its path
  have hpaths : paths = earlier.paths ++ later.paths := by
    have hmade : (resolver.noting.callAll paths (state, [])).2.2.paths = paths :=
      paths_callAll_noting paths state
    rw [← hmade, h, History.paths, List.map_append]
    rfl
  constructor
  · rw [hpaths, callAll_append] at h
    simp only [callAll_noting, List.nil_append] at h ⊢
    refine (List.append_inj h ?_).1
    rw [List.length_zip, length_callAll, Nat.min_self, History.paths, List.length_map]
  · rw [hpaths, callAll_append]

/-- What a resolver was used for can be cut at any of the calls. -/
theorem afterAll_noting_cut {uses : List Use} {state : σ} {earlier later : History}
    (h : (Use.afterAll resolver.noting uses (state, [])).2 = earlier ++ later) :
    (resolver.noting.callAll earlier.paths (state, [])).2.2 = earlier ∧
      (resolver.noting.callAll later.paths
        (resolver.noting.callAll earlier.paths (state, [])).2).2 =
          Use.afterAll resolver.noting uses (state, []) := by
  obtain ⟨paths, hlast⟩ := Use.exists_calls_afterAll resolver.noting uses (state, [])
  rw [hlast] at h ⊢
  exact callAll_noting_cut h

end Resolver

/-- Keeping the calls of a resolver with their answers changes nothing else. -/
theorem Operand.run_compile_noting (treatment : Treatment) (resolver : Resolver σ) (o : Operand)
    (state : σ) (history : History) :
    (o.compile treatment resolver).run state =
      let noted := (o.compile treatment resolver.noting).run (state, history)
      ⟨noted.result, noted.log, noted.state.1⟩ :=
  (compile_simulates resolver.simulates_noting treatment o).run_eq state history

end AccessPlan
