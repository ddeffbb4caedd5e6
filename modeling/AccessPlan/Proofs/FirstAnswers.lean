import AccessPlan.Proofs.Recording

/-!
# First answers

Whatever a recorder is used for, between any two calls it holds the first field that was given for
each path, and nothing else.

* `Resolver.observed`: a recorder of which the calls on either side are kept. `Observed`: its
  states.
* `Observed.Consistent`: the record against these calls. `Observed.Consistent.step`: a call does not
  break it. `Observed.Consistent.callAll`: nor do calls in a row.
* `Observed.Memo`: what a recorder is at a point, and what the next call does.
* `Resolver.recorder_keeps_first_answers`: it is this at every point of its use.
-/

namespace AccessPlan

variable {σ : Type}

/-! ## A recorder between its calls -/

/-- A recorder with the calls that it made and the calls that were made to it. -/
abbrev Observed (σ : Type) := Recorded (σ × History) × History

/-- The recorder, with the calls kept that it makes and the calls that are made to it. -/
def Resolver.observed (resolver : Resolver σ) : Resolver (Observed σ) :=
  resolver.noting.recording.noting

namespace Observed

/-- Nothing has been called yet. -/
def start (inner : σ) : Observed σ := (.start (inner, []), [])

/-- The fields on record. -/
def record (point : Observed σ) : Dict String := point.1.record

/-- The state of the resolver behind the recorder. -/
def inner (point : Observed σ) : σ := point.1.inner.1

/-- The calls of the resolver behind the recorder. -/
def reached (point : Observed σ) : History := point.1.inner.2

/-- The calls of the recorder. -/
def made (point : Observed σ) : History := point.2

/-- The recorder without the calls. -/
def plain (point : Observed σ) : Recorded σ := ⟨point.record, point.inner⟩

/-- The record agrees with the calls on either side of the recorder. -/
structure Consistent (point : Observed σ) : Prop where
  /-- It holds for each path the first field that the resolver gave, and nothing else. -/
  first : ∀ path, point.record.get? path = point.reached.field? path
  /-- It holds the field of each call that was answered with one, and nothing else. -/
  given : ∀ path field, (path, .ok field) ∈ point.made ↔ point.record.get? path = some field
  /-- The resolver gave a field at most once for each path. -/
  once : point.reached.resolved.Nodup

variable {resolver : Resolver σ} {point : Observed σ} {path field : String} {inner : σ}
  {e : ResolveError}

/-! The three ways in which a call can go: the path is on record, or one call gives its field, or
one call fails. -/

theorem observed_of_get? (h : point.record.get? path = some field) :
    resolver.observed path point = (.ok field, point.1, point.made ++ [(path, .ok field)]) :=
  Resolver.noting_of_eq (Resolver.recording_of_get? h) point.made

theorem observed_of_ok (h : point.record.get? path = none)
    (hr : resolver path point.inner = (.ok field, inner)) :
    resolver.observed path point =
      (.ok field,
        ⟨point.record.insert path field, inner, point.reached ++ [(path, .ok field)]⟩,
        point.made ++ [(path, .ok field)]) :=
  Resolver.noting_of_eq (Resolver.recording_of_ok h (Resolver.noting_of_eq hr _)) point.made

theorem observed_of_error (h : point.record.get? path = none)
    (hr : resolver path point.inner = (.error e, inner)) :
    resolver.observed path point =
      (.error e, ⟨point.record, inner, point.reached ++ [(path, .error e)]⟩,
        point.made ++ [(path, .error e)]) :=
  Resolver.noting_of_eq (Resolver.recording_of_error h (Resolver.noting_of_eq hr _)) point.made

theorem consistent_start (inner : σ) : Consistent (start inner) where
  first _ := rfl
  given _ _ := ⟨nofun, nofun⟩
  once := List.nodup_nil

namespace Consistent

theorem step_of_get? (h : Consistent point) (hget : point.record.get? path = some field) :
    Consistent (point.1, point.made ++ [(path, .ok field)]) where
  first := h.first
  given q w := by
    show (q, _) ∈ point.made ++ [(path, .ok field)] ↔ point.record.get? q = some w
    rw [List.mem_append, h.given, List.mem_singleton]
    -- the new call says what the record says already, so nothing more is given
    refine ⟨?_, .inl⟩
    rintro (hq | hq)
    · exact hq
    · cases hq
      exact hget
  once := h.once

theorem step_of_ok (h : Consistent point) (hget : point.record.get? path = none) :
    Consistent
      (⟨point.record.insert path field, inner, point.reached ++ [(path, .ok field)]⟩,
        point.made ++ [(path, .ok field)]) where
  first q := by
    show (point.record.insert path field).get? q =
      History.field? (point.reached ++ [(path, .ok field)]) q
    rw [Dict.get?_insert, History.field?_concat_ok, ← h.first]
    -- at the path itself the resolver's answer is the first, since nothing is on record
    by_cases hq : q = path
    · subst hq
      simp [hget]
    · simp [hq, Ne.symm hq]
  given q w := by
    show (q, _) ∈ point.made ++ [(path, .ok field)] ↔
      (point.record.insert path field).get? q = some w
    rw [List.mem_append, h.given, List.mem_singleton, Dict.get?_insert]
    by_cases hq : q = path
    · subst hq
      simp [hget, eq_comm]
    · simp [hq]
  once := by
    show (History.resolved (point.reached ++ [(path, .ok field)])).Nodup
    -- a path without a field on record has been given none before
    have hnew : path ∉ point.reached.resolved := by
      rw [← History.isSome_field?_iff, ← h.first, hget]
      simp
    rw [History.resolved_concat_ok, List.nodup_append]
    refine ⟨h.once, List.nodup_singleton path, fun q hq p hp => ?_⟩
    obtain rfl : p = path := List.mem_singleton.1 hp
    rintro rfl
    exact hnew hq

theorem step_of_error (h : Consistent point) :
    Consistent
      (⟨point.record, inner, point.reached ++ [(path, .error e)]⟩,
        point.made ++ [(path, .error e)]) where
  -- an error is no field, neither on the inner side nor on the outer: the record is not touched
  first q := (h.first q).trans (History.field?_concat_error e).symm
  given q w := by
    show (q, _) ∈ point.made ++ [(path, .error e)] ↔ point.record.get? q = some w
    rw [List.mem_append, h.given, List.mem_singleton]
    simp
  once := by
    show (History.resolved (point.reached ++ [(path, .error e)])).Nodup
    rw [History.resolved_concat_error]
    exact h.once

/-- A call does not break the agreement. -/
theorem step (h : Consistent point) (path : String) :
    Consistent (resolver.observed path point).2 := by
  cases hget : point.record.get? path with
  | some field =>
    rw [observed_of_get? hget]
    exact h.step_of_get? hget
  | none =>
    rcases hr : resolver path point.inner with ⟨e | field, inner⟩
    · rw [observed_of_error hget hr]
      exact h.step_of_error
    · rw [observed_of_ok hget hr]
      exact h.step_of_ok hget

/-- Nor do calls in a row. -/
theorem callAll (h : Consistent point) (paths : List String) :
    Consistent (resolver.observed.callAll paths point).2 := by
  induction paths generalizing point with
  | nil => exact h
  | cons path rest ih => exact ih (h.step path)

/-- There are as many entries as different paths whose calls were answered with a field. -/
theorem size_eq (h : Consistent point) : point.1.size = point.made.resolved.dedup.length := by
  refine Entries.size_eq_length_dedup fun path => ?_
  rw [History.mem_resolved_iff, Option.isSome_iff_exists]
  exact exists_congr fun field => (h.given path field).symm

end Consistent

/-- What a recorder is at a point of its use. -/
structure Memo (resolver : Resolver σ) (point : Observed σ) : Prop extends Consistent point where
  /-- A path on record is answered from it, and no call is made. -/
  hit : ∀ path field, point.record.get? path = some field →
    resolver.observed path point = (.ok field, point.1, point.made ++ [(path, .ok field)])
  /-- For any other path one call is made. If it gives a field, this goes on record. -/
  miss : ∀ path field inner, point.record.get? path = none →
    resolver path point.inner = (.ok field, inner) →
      resolver.observed path point =
        (.ok field,
          ⟨point.record.insert path field, inner, point.reached ++ [(path, .ok field)]⟩,
          point.made ++ [(path, .ok field)])
  /-- If it fails, its error is the answer and the record stays as it is. -/
  failure : ∀ path e inner, point.record.get? path = none →
    resolver path point.inner = (.error e, inner) →
      resolver.observed path point =
        (.error e, ⟨point.record, inner, point.reached ++ [(path, .error e)]⟩,
          point.made ++ [(path, .error e)])
  /-- Whatever is called from here on, no entry is changed or removed. -/
  kept : ∀ paths, point.record.Within (record (resolver.observed.callAll paths point).2)
  /-- There are as many entries as different paths whose calls were answered with a field. -/
  size : point.1.size = point.made.resolved.dedup.length

theorem Consistent.memo (h : Consistent point) : Memo resolver point where
  toConsistent := h
  hit _ _ := observed_of_get?
  miss _ _ _ := observed_of_ok
  failure _ _ _ := observed_of_error
  kept paths := by
    obtain ⟨recorded, history⟩ := point
    rw [Resolver.observed, Resolver.callAll_noting]
    exact resolver.noting.within_callAll paths recorded
  size := h.size_eq

end Observed

/-! ## Throughout all uses -/

/-- Keeping the calls on either side of a recorder changes nothing else. -/
theorem Resolver.simulates_observed (resolver : Resolver σ) :
    resolver.recording.Simulates (fun state (point : Observed σ) => state = point.plain)
      resolver.observed := by
  rintro path _ point rfl
  -- the three ways in which a call can go, taken on both sides at once
  cases hget : point.record.get? path with
  | some field =>
    have hplain : resolver.recording path point.plain = (.ok field, point.plain) :=
      recording_of_get? hget
    rw [Observed.observed_of_get? hget, hplain]
    exact ⟨rfl, rfl⟩
  | none =>
    rcases hr : resolver path point.inner with ⟨e | field, inner⟩
    · have hplain : resolver.recording path point.plain = (.error e, ⟨point.record, inner⟩) :=
        recording_of_error hget hr
      rw [Observed.observed_of_error hget hr, hplain]
      exact ⟨rfl, rfl⟩
    · have hplain : resolver.recording path point.plain =
          (.ok field, ⟨point.record.insert path field, inner⟩) := recording_of_ok hget hr
      rw [Observed.observed_of_ok hget hr, hplain]
      exact ⟨rfl, rfl⟩

/-- How a recorder that starts without entries does throughout its uses. -/
structure Resolver.Remembers (resolver : Resolver σ) (inner : σ) (uses : List Use)
    (last : Observed σ) : Prop where
  /-- The recorder is left with the record and the resolver with the state that they have when the
  calls are not kept. -/
  plain : Use.afterAll resolver.recording uses (.start inner) = last.plain
  /-- Wherever the calls are cut, those before the cut lead to a point at which they are all calls
  that were made, those after it lead from there to the end, and the recorder holds the first
  answers at this point. -/
  points : ∀ earlier later, last.made = earlier ++ later →
    let point := (resolver.observed.callAll earlier.paths (.start inner)).2
    point.made = earlier ∧ (resolver.observed.callAll later.paths point).2 = last ∧
      Observed.Memo resolver point

/-- At every point of its use a recorder holds the first field that was given for each path,
answers from its record or with one call, and keeps what it holds. -/
theorem Resolver.recorder_keeps_first_answers (resolver : Resolver σ) (inner : σ)
    (uses : List Use) :
    resolver.Remembers inner uses (Use.afterAll resolver.observed uses (.start inner)) where
  plain := Use.afterAll_related resolver.simulates_observed uses rfl
  points earlier later h := by
    obtain ⟨paths, hlast⟩ := Use.exists_calls_afterAll resolver.observed uses (.start inner)
    rw [hlast] at h ⊢
    obtain ⟨hmade, hend⟩ := callAll_noting_cut h
    exact ⟨hmade, hend, ((Observed.consistent_start inner).callAll earlier.paths).memo⟩

-- a resolver with its answers in a list: the second of three calls is the last one that it sees
example :
    let script : Resolver (List (Except ResolveError String)) := fun path answers =>
      (answers.headD (.error (.unmapped path)), answers.tail)
    let last := Use.afterAll script.observed [.call "a", .call "a", .call "a"]
      (.start [.error (.unmapped "a"), .ok "x", .ok "y"])
    last.made = [("a", .error (.unmapped "a")), ("a", .ok "x"), ("a", .ok "x")] ∧
      last.inner = [.ok "y"] :=
  ⟨rfl, rfl⟩

end AccessPlan
