import AccessPlan.Proofs.FirstAnswers

/-!
# Recorders around recorders

A recorder may stand in front of another recorder. Whatever a stack of them is used for, it gives
what one recorder gives, it calls the resolver behind it as often, and every layer has the same on
record.

* `Stacked`: the states of recorders around each other. `Stacked.records`, `Stacked.innermost`: what
  the layers have on record, and the state of the resolver behind them.
* `Resolver.stacked`: the resolver behind that many recorders.
* `Stacked.level`: the stack whose layers all have the record of one recorder.
* `Resolver.stacked_level`: a call takes one such stack to the next.
  `Resolver.stacked_simulates_recording`: so a stack is not told from one recorder.
* `Resolver.stacking_changes_nothing`: what this means for all uses of a stack.
-/

namespace AccessPlan

variable {σ : Type}

/-! ## Stacks -/

/-- The states of recorders around each other, and of the resolver behind them. -/
def Stacked (σ : Type) : Nat → Type
  | 0 => σ
  | layers + 1 => Recorded (Stacked σ layers)

namespace Stacked

/-- Nothing is on record yet, in no layer. -/
def start (inner : σ) : (layers : Nat) → Stacked σ layers
  | 0 => inner
  | layers + 1 => Recorded.start (start inner layers)

/-- What the layers have on record, the outermost first. -/
def records : (layers : Nat) → Stacked σ layers → List (Dict String)
  | 0, _ => []
  | layers + 1, stack => Recorded.record stack :: records layers (Recorded.inner stack)

/-- The state of the resolver behind all layers. -/
def innermost : (layers : Nat) → Stacked σ layers → σ
  | 0, state => state
  | layers + 1, stack => innermost layers (Recorded.inner stack)

/-- The stack whose layers all have the record of one recorder. -/
def level (single : Recorded σ) : (layers : Nat) → Stacked σ layers
  | 0 => single.inner
  | layers + 1 => Recorded.mk single.record (level single layers)

theorem level_start (inner : σ) (layers : Nat) :
    level (.start inner) layers = start inner layers := by
  induction layers with
  | zero => rfl
  | succ layers ih => rw [level, ih]; rfl

theorem records_level (single : Recorded σ) (layers : Nat) :
    records layers (level single layers) = List.replicate layers single.record := by
  induction layers with
  | zero => rfl
  | succ layers ih =>
    rw [List.replicate_succ, ← ih]
    rfl

theorem innermost_level (single : Recorded σ) (layers : Nat) :
    innermost layers (level single layers) = single.inner := by
  induction layers with
  | zero => rfl
  | succ layers ih => exact ih

end Stacked

/-! ## Calls -/

namespace Resolver

/-- The resolver behind recorders around each other. -/
def stacked (resolver : Resolver σ) : (layers : Nat) → Resolver (Stacked σ layers)
  | 0 => resolver
  | layers + 1 => (resolver.stacked layers).recording

/-- If all layers have the record of one recorder, a call is answered as by this recorder, and the
layers have its record again. -/
theorem stacked_level (resolver : Resolver σ) (path : String) (single : Recorded σ)
    (layers : Nat) :
    resolver.stacked (layers + 1) path (.level single (layers + 1)) =
      let after := resolver.recording path single
      (after.1, .level after.2 (layers + 1)) := by
  induction layers with
  | zero => rfl
  | succ layers ih =>
    -- the outermost layer misses a path exactly when the layers below it do
    rcases resolver.recording_cases path single with
      ⟨field, hget, hcall⟩ | ⟨field, inner, hget, -, hcall⟩ | ⟨e, inner, hget, -, hcall⟩
    · rw [hcall]
      exact recording_of_get? hget
    · rw [hcall] at ih ⊢
      exact recording_of_ok hget ih
    · rw [hcall] at ih ⊢
      exact recording_of_error hget ih

/-- As long as all its layers have the record of one recorder, a stack is not told from it. -/
theorem stacked_simulates_recording (resolver : Resolver σ) (layers : Nat) :
    (resolver.stacked (layers + 1)).Simulates
      (fun stack single => stack = .level single (layers + 1)) resolver.recording := by
  rintro path _ single rfl
  rw [stacked_level]
  exact ⟨rfl, rfl⟩

/-! ## Throughout all uses -/

/-- How recorders around each other do throughout their uses, next to one recorder. The calls of the
outermost recorder and those of the resolver are kept, on both sides. -/
structure StacksUp (resolver : Resolver σ) (inner : σ) (layers : Nat) (uses : List Use)
    (stack : Stacked (σ × History) layers × History) (single : Observed σ) : Prop where
  /-- All uses give what they give over one recorder. -/
  answers : Use.answers (resolver.stacked layers) uses (.start inner layers) =
    Use.answers resolver.recording uses (.start inner)
  /-- The layers are left with the record of one recorder, and the resolver in the state that it has
  behind one. -/
  last :
    let last := Use.afterAll (resolver.stacked layers) uses (.start inner layers)
    let alone := Use.afterAll resolver.recording uses (.start inner)
    Stacked.records layers last = List.replicate layers alone.record ∧
      Stacked.innermost layers last = alone.inner
  /-- These are the records and the state that there are when the calls are kept. -/
  plain :
    let last := Use.afterAll (resolver.stacked layers) uses (.start inner layers)
    Stacked.records layers last = Stacked.records layers stack.1 ∧
      Stacked.innermost layers last = (Stacked.innermost layers stack.1).1
  /-- The same calls are made, and each is answered the same. -/
  made : stack.2 = single.made
  /-- Wherever the calls are cut, those before the cut lead on both sides to a point at which
  exactly they have been made, and those after it lead from there to the end. At this point the
  resolver has seen the same calls and is in the same state, and all layers have the record of the
  one recorder. -/
  points : ∀ earlier later, stack.2 = earlier ++ later →
    let stacked := resolver.noting.stacked layers
    let layered := (stacked.noting.callAll earlier.paths (.start (inner, []) layers, [])).2
    let point := (resolver.observed.callAll earlier.paths (.start inner)).2
    (layered.2 = earlier ∧ (stacked.noting.callAll later.paths layered).2 = stack) ∧
      (point.made = earlier ∧ (resolver.observed.callAll later.paths point).2 = single) ∧
      Stacked.innermost layers layered.1 = (point.inner, point.reached) ∧
      Stacked.records layers layered.1 = List.replicate layers point.record

/-- Whatever they are used for, recorders around each other do as one of them does alone. -/
theorem stacking_changes_nothing (resolver : Resolver σ) (inner : σ) (layers : Nat)
    (uses : List Use) :
    StacksUp resolver inner (layers + 1) uses
      (Use.afterAll (resolver.noting.stacked (layers + 1)).noting uses
        (.start (inner, []) (layers + 1), []))
      (Use.afterAll resolver.observed uses (.start inner)) := by
  -- a stack is related to one recorder twice, over the resolver and over it with its calls kept
  have hplain := resolver.stacked_simulates_recording layers
  have hkept := resolver.noting.stacked_simulates_recording layers
  have hstart := (Stacked.level_start inner (layers + 1)).symm
  have hstart' := (Stacked.level_start (inner, ([] : History)) (layers + 1)).symm
  have hlast := Use.afterAll_related hplain uses hstart
  have hnoted := Use.afterAll_related hkept.noting uses
    (s := (Stacked.start (inner, []) (layers + 1), [])) (t := Observed.start inner) ⟨hstart', rfl⟩
  constructor
  case answers => exact Use.answers_related hplain uses hstart
  case last =>
    simp only [hlast, Stacked.records_level, Stacked.innermost_level, and_self]
  case plain =>
    have hsingle := Use.afterAll_related resolver.simulates_observed uses
      (s := Recorded.start inner) (t := Observed.start inner) rfl
    simp only [hlast, hnoted.1, hsingle, Stacked.records_level, Stacked.innermost_level]
    exact ⟨rfl, rfl⟩
  case made => exact hnoted.2
  case points =>
    intro earlier later h
    obtain ⟨hmade, hend⟩ := afterAll_noting_cut h
    obtain ⟨hmade', hend'⟩ := afterAll_noting_cut (hnoted.2.symm.trans h)
    refine ⟨⟨hmade, hend⟩, ⟨hmade', hend'⟩, ?_⟩
    obtain ⟨-, hpoint, -⟩ := hkept.noting.callAll earlier.paths
      (s := (Stacked.start (inner, []) (layers + 1), [])) (t := Observed.start inner) ⟨hstart', rfl⟩
    simp only [hpoint, Stacked.innermost_level, Stacked.records_level]
    exact ⟨rfl, rfl⟩

-- two layers: the call that fails leaves no trace in either, and the second answer goes to both
example :
    let script : Resolver (List (Except ResolveError String)) := fun path answers =>
      (answers.headD (.error (.unmapped path)), answers.tail)
    let last := Use.afterAll (script.stacked 2) [.call "a", .call "a", .call "a"]
      (.start [.error (.unmapped "a"), .ok "x", .ok "y"] 2)
    Stacked.records 2 last = [.single "a" "x", .single "a" "x"] ∧
      Stacked.innermost 2 last = [.ok "y"] :=
  ⟨rfl, rfl⟩

end Resolver

end AccessPlan
