import AccessPlan.Resolver.Basic

/-!
# Calls in a row

What a resolver answers to calls made one after the other, each from the state that the one before
left.

* `Resolver.callAll`: the answers, and the state after the last call.
* `Resolver.AnswersAll`: whether every one of the calls is answered with a field.
* `callAll_append`, `answersAll_append_iff`: calls in two parts.
* `callAll_traced`: the paths that are kept are those of the calls, the last one in front.
-/

namespace AccessPlan.Resolver

variable {σ : Type}

/-- The answers to calls made one after the other, and the state after the last one. -/
def callAll (resolver : Resolver σ) : List String → σ → List (Except ResolveError String) × σ
  | [], state => ([], state)
  | path :: rest, state =>
    let (answer, next) := resolver path state
    let (answers, last) := resolver.callAll rest next
    (answer :: answers, last)

/-- Whether calls made one after the other are all answered with a field. -/
def AnswersAll (resolver : Resolver σ) (paths : List String) (state : σ) : Prop :=
  ∀ answer ∈ (resolver.callAll paths state).1, ∃ field, answer = .ok field

variable {resolver : Resolver σ}

theorem eq_of_answer {path : String} {state : σ} {answer : Except ResolveError String}
    (h : (resolver path state).1 = answer) :
    resolver path state = (answer, (resolver path state).2) := by
  rw [← h]

@[simp] theorem callAll_nil (state : σ) : resolver.callAll [] state = ([], state) := rfl

theorem callAll_cons (path : String) (rest : List String) (state : σ) :
    resolver.callAll (path :: rest) state =
      let later := resolver.callAll rest (resolver path state).2
      ((resolver path state).1 :: later.1, later.2) := rfl

theorem callAll_append (front back : List String) (state : σ) :
    resolver.callAll (front ++ back) state =
      let first := resolver.callAll front state
      let second := resolver.callAll back first.2
      (first.1 ++ second.1, second.2) := by
  induction front generalizing state with
  | nil => rfl
  | cons path rest ih => simp only [List.cons_append, callAll_cons, ih]

@[simp] theorem answersAll_nil (state : σ) : resolver.AnswersAll [] state := by
  simp [AnswersAll]

theorem answersAll_cons_iff {path : String} {rest : List String} {state : σ} :
    resolver.AnswersAll (path :: rest) state ↔
      (∃ field, (resolver path state).1 = .ok field) ∧
        resolver.AnswersAll rest (resolver path state).2 := by
  rw [AnswersAll, callAll_cons, List.forall_mem_cons]
  rfl

theorem answersAll_append_iff {front back : List String} {state : σ} :
    resolver.AnswersAll (front ++ back) state ↔
      resolver.AnswersAll front state ∧
        resolver.AnswersAll back (resolver.callAll front state).2 := by
  rw [AnswersAll, callAll_append, List.forall_mem_append]
  rfl

/-- A resolver whose answers depend on the path alone answers each call as if it were the only
one. -/
theorem answersAll_ofFunction_iff {f : String → Except ResolveError String} {paths : List String}
    {state : σ} :
    (ofFunction f).AnswersAll paths state ↔ ∀ path ∈ paths, ∃ field, f path = .ok field := by
  induction paths with
  | nil => simp
  | cons path rest ih =>
    rw [answersAll_cons_iff, List.forall_mem_cons]
    exact and_congr_right fun _ => ih

/-- Keeping the paths of the calls changes no answer. -/
theorem callAll_traced (paths : List String) (state : σ) (calls : List String) :
    resolver.traced.callAll paths (state, calls) =
      let plain := resolver.callAll paths state
      (plain.1, plain.2, paths.reverse ++ calls) := by
  induction paths generalizing state calls with
  | nil => rfl
  | cons path rest ih =>
    have hcall : resolver.traced path (state, calls) =
        ((resolver path state).1, (resolver path state).2, path :: calls) := rfl
    simp only [callAll_cons, hcall, ih, List.reverse_cons, List.append_assoc, List.singleton_append]

end AccessPlan.Resolver
