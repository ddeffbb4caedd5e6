import AccessPlan.Proofs.Pairs
import AccessPlan.Proofs.Uses
import AccessPlan.Resolver.Recorder

/-!
# What a recorder keeps

A recorder answers from its record or makes one call. Its record only grows.

* `Dict.Within`: all entries of the one dictionary are entries of the other.
* `Resolver.recording_cases`: what a call of a recorder does.
* `Resolver.within_callAll`, `within_afterAll`: no call and no use changes or removes an entry.
* `Resolver.contains_callAll_iff`: the paths on record after calls that were answered.
-/

namespace AccessPlan

variable {α σ : Type}

/-! ## Growing records -/

namespace Dict

/-- All entries of the one dictionary are entries of the other. -/
def Within (d e : Dict α) : Prop := ∀ k v, d.get? k = some v → e.get? k = some v

theorem Within.refl (d : Dict α) : d.Within d := fun _ _ h => h

theorem Within.trans {d e f : Dict α} (hde : d.Within e) (hef : e.Within f) : d.Within f :=
  fun k v h => hef k v (hde k v h)

/-- Writing at a new key changes no entry. -/
theorem within_insert {d : Dict α} {k : String} (h : d.get? k = none) (v : α) :
    d.Within (d.insert k v) := by
  intro q w hq
  rw [get?_insert, if_neg, hq]
  rintro rfl
  rw [h] at hq
  cases hq

end Dict

namespace Resolver

variable (resolver : Resolver σ) {path : String} {state : Recorded σ}

/-- A recorder answers from its record, or with the field that one call gives and that is then on
record, or with the error of this call. -/
theorem recording_cases (path : String) (state : Recorded σ) :
    (∃ field, state.record.get? path = some field ∧
        resolver.recording path state = (.ok field, state)) ∨
      (∃ field inner, state.record.get? path = none ∧
        resolver path state.inner = (.ok field, inner) ∧
        resolver.recording path state = (.ok field, ⟨state.record.insert path field, inner⟩)) ∨
      ∃ e inner, state.record.get? path = none ∧
        resolver path state.inner = (.error e, inner) ∧
        resolver.recording path state = (.error e, { state with inner }) := by
  cases hget : state.record.get? path with
  | some field => exact .inl ⟨field, rfl, recording_of_get? hget⟩
  | none =>
    rcases hcall : resolver path state.inner with ⟨e | field, inner⟩
    · exact .inr (.inr ⟨e, inner, rfl, rfl, recording_of_error hget hcall⟩)
    · exact .inr (.inl ⟨field, inner, rfl, rfl, recording_of_ok hget hcall⟩)

theorem within_recording (path : String) (state : Recorded σ) :
    state.record.Within (resolver.recording path state).2.record := by
  rcases resolver.recording_cases path state with
    ⟨field, -, h⟩ | ⟨field, inner, hget, -, h⟩ | ⟨e, inner, -, -, h⟩
  · rw [h]
    exact .refl _
  · rw [h]
    exact Dict.within_insert hget field
  · rw [h]
    exact .refl _

/-- No call of a recorder changes or removes an entry. -/
theorem within_callAll (paths : List String) (state : Recorded σ) :
    state.record.Within (resolver.recording.callAll paths state).2.record := by
  induction paths generalizing state with
  | nil => exact .refl _
  | cons path rest ih => exact (resolver.within_recording path state).trans (ih _)

/-- Nor does any use. -/
theorem within_afterAll (uses : List Use) (state : Recorded σ) :
    state.record.Within (Use.afterAll resolver.recording uses state).record := by
  obtain ⟨paths, h⟩ := Use.exists_calls_afterAll resolver.recording uses state
  rw [h]
  exact resolver.within_callAll paths state

variable {resolver}

/-- The record after a call that was answered: either it had the field already, or the field has
been written. -/
theorem record_of_recording_ok {field : String} {next : Recorded σ}
    (h : resolver.recording path state = (.ok field, next)) :
    state.record.get? path = some field ∧ next.record = state.record ∨
      state.record.get? path = none ∧ next.record = state.record.insert path field := by
  rcases resolver.recording_cases path state with
    ⟨field', hget, h'⟩ | ⟨field', inner, hget, -, h'⟩ | ⟨e, inner, -, -, h'⟩
  · rw [h'] at h
    cases h
    exact .inl ⟨hget, rfl⟩
  · rw [h'] at h
    cases h
    exact .inr ⟨hget, rfl⟩
  · rw [h'] at h
    cases h

/-- A path that was answered with a field is on record with this field. -/
theorem get?_of_recording_ok {field : String} {next : Recorded σ}
    (h : resolver.recording path state = (.ok field, next)) :
    next.record.get? path = some field := by
  rcases record_of_recording_ok h with ⟨hget, hnext⟩ | ⟨-, hnext⟩
  · rw [hnext, hget]
  · rw [hnext, Dict.get?_insert, if_pos rfl]

/-- An answered call puts its path on record, and no other. -/
theorem contains_of_recording_ok {field : String} {next : Recorded σ}
    (h : resolver.recording path state = (.ok field, next)) (q : String) :
    next.contains q ↔ state.contains q ∨ q = path := by
  rw [Recorded.contains, Recorded.contains, Entries.contains, Entries.contains]
  rcases record_of_recording_ok h with ⟨hget, hnext⟩ | ⟨-, hnext⟩
  · rw [hnext]
    refine ⟨.inl, ?_⟩
    rintro (hq | rfl)
    · exact hq
    · rw [hget]
      rfl
  · rw [hnext, Dict.get?_insert]
    by_cases hq : q = path <;> simp [hq]

/-- A call that fails leaves the record as it was. -/
theorem record_of_recording_error {e : ResolveError} {next : Recorded σ}
    (h : resolver.recording path state = (.error e, next)) : next.record = state.record := by
  rcases resolver.recording_cases path state with
    ⟨field, -, h'⟩ | ⟨field, inner, -, -, h'⟩ | ⟨e', inner, -, -, h'⟩
  · rw [h'] at h
    cases h
  · rw [h'] at h
    cases h
  · rw [h'] at h
    cases h
    rfl

/-- Calls that were answered put their paths on record, and no others. -/
theorem contains_callAll_iff {paths : List String}
    (h : resolver.recording.AnswersAll paths state) (q : String) :
    (resolver.recording.callAll paths state).2.contains q ↔ state.contains q ∨ q ∈ paths := by
  induction paths generalizing state with
  | nil => simp
  | cons path rest ih =>
    obtain ⟨⟨field, hfield⟩, hrest⟩ := answersAll_cons_iff.1 h
    rw [callAll_cons, List.mem_cons]
    simp only [ih hrest, contains_of_recording_ok (eq_of_answer hfield), or_assoc]

end Resolver

end AccessPlan
