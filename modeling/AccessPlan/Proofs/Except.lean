/-!
# When a computation that may fail succeeds

* `Except.bind_eq_ok_iff`, `Except.map_eq_ok_iff`: a computation in steps succeeds if its steps do.
* `Except.throw_bind_ne_ok`: nothing is reached behind a failure.
-/

namespace Except

variable {ε α β : Type}

theorem bind_eq_ok_iff {x : Except ε α} {f : α → Except ε β} {value : β} :
    x >>= f = .ok value ↔ ∃ first, x = .ok first ∧ f first = .ok value := by
  cases x with
  | error e => simp [bind, Except.bind]
  | ok first => simp [bind, Except.bind]

theorem map_eq_ok_iff {x : Except ε α} {f : α → β} {value : β} :
    f <$> x = .ok value ↔ ∃ first, x = .ok first ∧ f first = value := by
  cases x with
  | error e => simp [Functor.map, Except.map]
  | ok first => simp [Functor.map, Except.map]

theorem throw_bind_ne_ok {e : ε} {f : α → Except ε β} {value : β} :
    (throw e >>= f : Except ε β) ≠ .ok value := nofun

end Except
