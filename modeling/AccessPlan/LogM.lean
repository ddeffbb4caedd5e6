import AccessPlan.Log

/-!
# Computations with a log

A computation gives a value or fails, writes to the log, and changes a state. What it wrote and
changed before it failed stays.

* `LogM.run_bind`: the second computation goes on from the state of the first, and its entries
  follow; it is not run if the first one fails.
* `LogM.focus`: a computation on a part of the state.
-/

namespace AccessPlan

/-- What a computation leaves: its value or error, its log entries in order, and the state. -/
structure Outcome (σ ε α : Type) where
  result : Except ε α
  log : List LogEntry
  state : σ

/-- A computation on a state that may fail and writes to the log. -/
def LogM (σ ε α : Type) := σ → Outcome σ ε α

namespace LogM

variable {σ τ ε ε' α β : Type}

/-- Runs a computation from a state. -/
def run (x : LogM σ ε α) (state : σ) : Outcome σ ε α := x state

/-- Gives a value. -/
protected def pure (value : α) : LogM σ ε α := fun state => ⟨.ok value, [], state⟩

/-- Runs a computation, and another one on its value. -/
protected def bind (x : LogM σ ε α) (next : α → LogM σ ε β) : LogM σ ε β := fun state =>
  let first := x state
  match first.result with
  | .error e => ⟨.error e, first.log, first.state⟩
  | .ok value =>
    let second := next value first.state
    ⟨second.result, first.log ++ second.log, second.state⟩

instance : Monad (LogM σ ε) where
  pure := LogM.pure
  bind := LogM.bind

/-- Fails. -/
def fail (e : ε) : LogM σ ε α := fun state => ⟨.error e, [], state⟩

/-- Writes an entry to the log. -/
def log (entry : LogEntry) : LogM σ ε Unit := fun state => ⟨.ok (), [entry], state⟩

/-- A step that changes the state and does not write to the log. -/
def step (f : σ → Except ε α × σ) : LogM σ ε α := fun state =>
  let (result, state') := f state
  ⟨result, [], state'⟩

/-- The computation with its errors renamed. -/
def mapError (f : ε → ε') (x : LogM σ ε α) : LogM σ ε' α := fun state =>
  let outcome := x state
  ⟨outcome.result.mapError f, outcome.log, outcome.state⟩

/-- The computation on the second part of a state. -/
def focus (x : LogM σ ε α) : LogM (τ × σ) ε α := fun (other, state) =>
  let outcome := x state
  ⟨outcome.result, outcome.log, other, outcome.state⟩

@[simp] theorem run_pure (value : α) (state : σ) :
    (pure value : LogM σ ε α).run state = ⟨.ok value, [], state⟩ := rfl

@[simp] theorem run_fail (e : ε) (state : σ) :
    (fail e : LogM σ ε α).run state = ⟨.error e, [], state⟩ := rfl

@[simp] theorem run_log (entry : LogEntry) (state : σ) :
    (log entry : LogM σ ε Unit).run state = ⟨.ok (), [entry], state⟩ := rfl

theorem run_bind (x : LogM σ ε α) (next : α → LogM σ ε β) (state : σ) :
    (x >>= next).run state =
      match (x.run state).result with
      | .error e => ⟨.error e, (x.run state).log, (x.run state).state⟩
      | .ok value =>
        let second := (next value).run (x.run state).state
        ⟨second.result, (x.run state).log ++ second.log, second.state⟩ := rfl

theorem run_map (f : α → β) (x : LogM σ ε α) (state : σ) :
    (f <$> x).run state =
      ⟨(x.run state).result.map f, (x.run state).log, (x.run state).state⟩ := by
  have hbind : f <$> x = x >>= fun value => pure (f value) := rfl
  rw [hbind, run_bind]
  cases (x.run state).result with
  | error e => rfl
  | ok value => simp [Except.map]

@[simp] theorem run_mapError (f : ε → ε') (x : LogM σ ε α) (state : σ) :
    (x.mapError f).run state =
      ⟨(x.run state).result.mapError f, (x.run state).log, (x.run state).state⟩ := rfl

@[simp] theorem run_focus (x : LogM σ ε α) (other : τ) (state : σ) :
    x.focus.run (other, state) =
      ⟨(x.run state).result, (x.run state).log, other, (x.run state).state⟩ := rfl

/-- Computations that leave the same from every state are equal. -/
theorem ext_run {x y : LogM σ ε α} (h : ∀ state, x.run state = y.run state) : x = y := funext h

instance : LawfulMonad (LogM σ ε) := LawfulMonad.mk' _
  (fun x => ext_run fun state => by
    rw [run_map]
    cases h : (x.run state).result <;> simp [Except.map, ← h])
  (fun value next => ext_run fun state => by rw [run_bind]; simp)
  (fun x next after => ext_run fun state => by
    simp only [run_bind]
    cases (x.run state).result with
    | error e => rfl
    | ok value =>
      simp only
      cases ((next value).run (x.run state).state).result <;> simp [List.append_assoc])

end LogM

end AccessPlan
