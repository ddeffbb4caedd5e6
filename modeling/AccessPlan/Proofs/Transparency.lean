import AccessPlan.Proofs.Recording

/-!
# Recorders around functions

A resolver whose answers depend on the path alone is not changed by a recorder in front of it: what
is on record is what it would answer again.

* `Dict.Restricts`: a dictionary that holds answers of a function only.
* `Resolver.fst_recording_ofFunction`, `get?_recording_ofFunction`: what a recorder with such a
  record answers, and what it then has on record.
* `Resolver.get?_callAll_ofFunction`: what is on record after calls in a row.
* `Resolver.recording_is_transparent`: what this means for all uses of a recorder.
-/

namespace AccessPlan

variable {σ : Type} {f : String → Except ResolveError String}

/-- Every entry is what the function answers. -/
def Dict.Restricts (record : Dict String) (f : String → Except ResolveError String) : Prop :=
  ∀ path field, record.get? path = some field → f path = .ok field

theorem Dict.restricts_empty (f : String → Except ResolveError String) :
    (Dict.empty : Dict String).Restricts f := nofun

namespace Resolver

variable {state : Recorded σ}

/-- From a record of its answers a function is answered for as by itself. -/
theorem fst_recording_ofFunction (h : state.record.Restricts f) (path : String) :
    ((ofFunction f).recording path state).1 = f path := by
  rcases (ofFunction f).recording_cases path state with
    ⟨field, hget, hcall⟩ | ⟨field, inner, -, hanswer, hcall⟩ | ⟨e, inner, -, hanswer, hcall⟩
  · rw [hcall, h path field hget]
  · rw [hcall]
    exact (congrArg Prod.fst hanswer).symm
  · rw [hcall]
    exact (congrArg Prod.fst hanswer).symm

/-- A call puts on record what the function answers, if this is a field, and nothing else. -/
theorem get?_recording_ofFunction (h : state.record.Restricts f) (path q field : String) :
    ((ofFunction f).recording path state).2.record.get? q = some field ↔
      state.record.get? q = some field ∨ q = path ∧ f q = .ok field := by
  have hanswer := fst_recording_ofFunction h path
  rcases hcall : (ofFunction f).recording path state with ⟨e | answer, next⟩
  · rw [hcall] at hanswer
    rw [record_of_recording_error hcall]
    refine ⟨.inl, ?_⟩
    rintro (hq | ⟨rfl, hq⟩)
    · exact hq
    · rw [← hanswer] at hq
      cases hq
  · rw [hcall] at hanswer
    rcases record_of_recording_ok hcall with ⟨hget, hnext⟩ | ⟨hget, hnext⟩
    · rw [hnext]
      -- a hit: what the function answers to `path` is on record already
      refine ⟨.inl, ?_⟩
      rintro (hq | ⟨rfl, hq⟩)
      · exact hq
      · rw [← hanswer] at hq
        cases hq
        exact hget
    · rw [hnext, Dict.get?_insert]
      by_cases hq : q = path
      · subst hq
        simp [hget, ← hanswer]
      · simp [hq]

/-- After a call it is still a record of answers. -/
theorem restricts_recording_ofFunction (h : state.record.Restricts f) (path : String) :
    ((ofFunction f).recording path state).2.record.Restricts f := by
  intro q field hq
  rcases (get?_recording_ofFunction h path q field).1 hq with hq | ⟨-, hq⟩
  · exact h q field hq
  · exact hq

/-- As long as it holds answers of the function, a recorder is not told from it. -/
theorem recording_simulates_ofFunction (f : String → Except ResolveError String) :
    (ofFunction f).recording.Simulates
      (fun (recorded : Recorded σ) (_ : σ) => recorded.record.Restricts f) (ofFunction f) :=
  fun path _ _ h => ⟨fst_recording_ofFunction h path, restricts_recording_ofFunction h path⟩

/-- Calls in a row put on record what the function answers to them. -/
theorem get?_callAll_ofFunction (h : state.record.Restricts f) (paths : List String)
    (q field : String) :
    ((ofFunction f).recording.callAll paths state).2.record.get? q = some field ↔
      state.record.get? q = some field ∨ q ∈ paths ∧ f q = .ok field := by
  induction paths generalizing state with
  | nil => simp
  | cons path rest ih =>
    have hnext := ih (restricts_recording_ofFunction h path)
    rw [callAll_cons, hnext, get?_recording_ofFunction h, List.mem_cons, or_assoc, or_and_right]

/-- How a recorder around a function does throughout its uses. -/
structure Transparent (f : String → Except ResolveError String) (inner : σ) (uses : List Use)
    (last : Recorded σ × History) : Prop where
  /-- All uses give what they give over the function itself. -/
  answers : Use.answers (ofFunction f).recording uses (.start inner) =
    Use.answers (ofFunction f) uses inner
  /-- The recorder is left as it is when the calls are not kept. -/
  plain : Use.afterAll (ofFunction f).recording uses (.start inner) = last.1
  /-- Wherever the calls are cut, those before the cut lead to a point at which exactly they have
  been made, those after it lead from there to the end, and the record at this point is the function
  on the paths of the calls that have been made. -/
  points : ∀ earlier later, last.2 = earlier ++ later →
    let point := ((ofFunction f).recording.noting.callAll earlier.paths (.start inner, [])).2
    point.2 = earlier ∧
      ((ofFunction f).recording.noting.callAll later.paths point).2 = last ∧
      ∀ path field, point.1.record.get? path = some field ↔
        path ∈ earlier.paths ∧ f path = .ok field

/-- Whatever it is used for, a recorder around a function gives what the function gives, and has at
every point on record what the function answers to the calls that have been made. -/
theorem recording_is_transparent (f : String → Except ResolveError String) (inner : σ)
    (uses : List Use) :
    Transparent f inner uses
      (Use.afterAll (ofFunction f).recording.noting uses (.start inner, [])) where
  answers := Use.answers_related (recording_simulates_ofFunction f) uses (Dict.restricts_empty f)
  plain := Use.afterAll_related (simulates_noting (ofFunction f).recording) uses rfl
  points earlier later h := by
    obtain ⟨hmade, hend⟩ := afterAll_noting_cut h
    refine ⟨hmade, hend, fun path field => ?_⟩
    rw [callAll_noting, get?_callAll_ofFunction (Dict.restricts_empty f)]
    simp [Recorded.start]

-- compiling ends with the path that has no field, and what came before it stays on record
example :
    let f := fun path => if path = "b" then .error (.unmapped path) else .ok ("row." ++ path)
    let asked := fun path => Operand.comparison (.compare .oneOf) path .null
    let uses := [.plan .skip (.expression .or [asked "a", asked "b", asked "c"]), .call "a"]
    (Use.afterAll (ofFunction f).recording uses (.start ())).record = Dict.single "a" "row.a" ∧
      Use.answers (ofFunction f).recording uses (.start ()) =
        [.filter (.error (.resolver (.unmapped "b"))) [], .field (.ok "row.a")] :=
  ⟨rfl, rfl⟩

end Resolver

end AccessPlan
