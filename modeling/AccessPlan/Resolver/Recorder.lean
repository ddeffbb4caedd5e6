import AccessPlan.Dict.Basic
import AccessPlan.Resolver.Basic

/-!
# Recorders

A recorder stands in front of a resolver. It keeps the first field that the resolver gives for each
path, and answers that path from its record from then on. A call that fails leaves no trace.

* `Recorded`: the state of the resolver, and the record.
* `Resolver.recording`: the resolver behind a recorder.
* `recording_of_get?`: a path on record is answered without a call.
* `recording_of_ok`, `recording_of_error`: a path not on record is answered by one call.
-/

namespace AccessPlan

/-- The state of a resolver behind a recorder, and the fields that it gave. -/
structure Recorded (σ : Type) where
  record : Dict String
  inner : σ
deriving DecidableEq

namespace Recorded

variable {σ : Type}

/-- Nothing is on record yet. -/
def start (inner : σ) : Recorded σ := ⟨.empty, inner⟩

/-- Whether a path is on record. -/
def contains (r : Recorded σ) (path : String) : Bool := r.record.contains path

/-- The number of paths on record. -/
def size (r : Recorded σ) : Nat := r.record.size

/-- Whether no path is on record. -/
def isEmpty (r : Recorded σ) : Bool := r.record.isEmpty

end Recorded

namespace Resolver

variable {σ : Type}

/-- The resolver behind a recorder. -/
def recording (resolver : Resolver σ) : Resolver (Recorded σ) :=
  fun path state =>
    match state.record.get? path with
    | some field => (.ok field, state)
    | none =>
      match resolver path state.inner with
      | (.ok field, inner) => (.ok field, ⟨state.record.insert path field, inner⟩)
      | (.error e, inner) => (.error e, { state with inner })

variable {resolver : Resolver σ} {path : String} {state : Recorded σ}

theorem recording_of_get? {field : String} (h : state.record.get? path = some field) :
    resolver.recording path state = (.ok field, state) := by
  simp [recording, h]

theorem recording_of_ok {field : String} {inner : σ} (h : state.record.get? path = none)
    (hr : resolver path state.inner = (.ok field, inner)) :
    resolver.recording path state = (.ok field, ⟨state.record.insert path field, inner⟩) := by
  simp [recording, h, hr]

theorem recording_of_error {e : ResolveError} {inner : σ} (h : state.record.get? path = none)
    (hr : resolver path state.inner = (.error e, inner)) :
    resolver.recording path state = (.error e, { state with inner }) := by
  simp [recording, h, hr]

end Resolver

end AccessPlan
