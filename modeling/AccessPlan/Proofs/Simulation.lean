import AccessPlan.Proofs.Visits

/-!
# Resolvers that answer alike

If two resolvers give the same answers from related states, and end in related states, then every
plan compiles to the same result and with the same log over both.

* `LogM.Simulates`: two computations that give the same from related states.
* `Resolver.Simulates`: two resolvers that answer alike from related states.
* `Operand.compile_simulates`, `Response.compile_simulates`: compiling carries one to the other.
* `Operand.run_compile_traced`, `Response.run_compile_traced`: keeping the calls of a resolver
  changes nothing else.
-/

namespace AccessPlan

/-- From related states, the computations give the same result and log and end in related states. -/
def LogM.Simulates {σ τ ε α : Type} (R : σ → τ → Prop) (x : LogM σ ε α) (y : LogM τ ε α) : Prop :=
  ∀ s t, R s t → (x.run s).result = (y.run t).result ∧ (x.run s).log = (y.run t).log ∧
    R (x.run s).state (y.run t).state

/-- From related states, the resolvers answer alike and end in related states. -/
def Resolver.Simulates {σ τ : Type} (R : σ → τ → Prop) (p : Resolver σ) (q : Resolver τ) : Prop :=
  ∀ path s t, R s t → (p path s).1 = (q path t).1 ∧ R (p path s).2 (q path t).2

variable {σ τ ε α β : Type} {R : σ → τ → Prop}

namespace LogM.Simulates

theorem pure (value : α) : Simulates R (Pure.pure value : LogM σ ε α) (Pure.pure value) :=
  fun _ _ h => ⟨rfl, rfl, h⟩

theorem bind {x : LogM σ ε α} {y : LogM τ ε α} {f : α → LogM σ ε β} {g : α → LogM τ ε β}
    (hxy : Simulates R x y) (hfg : ∀ value, Simulates R (f value) (g value)) :
    Simulates R (x >>= f) (y >>= g) := by
  intro s t h
  obtain ⟨hresult, hlog, hstate⟩ := hxy s t h
  rw [run_bind, run_bind, hresult]
  cases (y.run t).result with
  | error e => exact ⟨rfl, hlog, hstate⟩
  | ok value =>
    obtain ⟨hresult', hlog', hstate'⟩ := hfg value _ _ hstate
    exact ⟨hresult', by simp only [hlog, hlog'], hstate'⟩

theorem map {x : LogM σ ε α} {y : LogM τ ε α} (f : α → β) (hxy : Simulates R x y) :
    Simulates R (f <$> x) (f <$> y) := by
  rw [map_eq_pure_bind, map_eq_pure_bind]
  exact hxy.bind fun value => pure (f value)

end LogM.Simulates

variable {p : Resolver σ} {q : Resolver τ}

theorem Visit.compile_simulates (hpq : p.Simulates R q) (treatment : Treatment) (v : Visit) :
    LogM.Simulates R (v.compile treatment p) (v.compile treatment q) := by
  cases v with
  | ask c path value =>
    refine LogM.Simulates.map _ fun s t h => ?_
    obtain ⟨hanswer, hstate⟩ := hpq path s t h
    rw [Operand.run_resolveField, Operand.run_resolveField, hanswer]
    exact ⟨rfl, rfl, hstate⟩
  | meet obstacle =>
    intro s t h
    cases treatment <;> exact ⟨rfl, rfl, h⟩

theorem Visit.compileAll_simulates (hpq : p.Simulates R q) (treatment : Treatment)
    (visits : List Visit) :
    LogM.Simulates R (compileAll treatment p visits) (compileAll treatment q visits) := by
  induction visits with
  | nil => exact .pure []
  | cons v rest ih =>
    rw [compileAll_cons, compileAll_cons]
    exact (compile_simulates hpq treatment v).bind fun filter =>
      ih.bind fun filters => .pure (filter :: filters)

namespace Operand

/-- Compiling a plan does not tell resolvers apart that answer alike. -/
theorem compile_simulates (hpq : p.Simulates R q) (treatment : Treatment) (o : Operand) :
    LogM.Simulates R (o.compile treatment p) (o.compile treatment q) := by
  rw [compile_eq_visits, compile_eq_visits]
  exact (Visit.compileAll_simulates hpq treatment o.visits).map o.assemble

end Operand

/-- Compiling a response does not tell resolvers apart that answer alike. -/
theorem Response.compile_simulates (hpq : p.Simulates R q) (treatment : Treatment) (r : Response) :
    LogM.Simulates R (r.compile treatment p) (r.compile treatment q) := by
  have hlog : ∀ entry, LogM.Simulates R (LogM.log entry : LogM σ CompileError Unit)
      (LogM.log entry) := fun _ _ _ h => ⟨rfl, rfl, h⟩
  have hfail : ∀ e, LogM.Simulates R (LogM.fail e : LogM σ CompileError Filter) (LogM.fail e) :=
    fun _ _ _ h => ⟨rfl, rfl, h⟩
  refine (hlog _).bind fun _ => ?_
  split
  · exact (hlog _).bind fun _ => hfail _
  · exact (hlog _).bind fun _ => .pure _
  · exact hfail _
  · exact Operand.compile_simulates hpq treatment _

/-! ## Keeping the calls -/

theorem Resolver.simulates_traced (resolver : Resolver σ) :
    resolver.Simulates (fun state (traced : σ × List String) => state = traced.1)
      resolver.traced := by
  rintro path s ⟨t, calls⟩ rfl
  exact ⟨rfl, rfl⟩

theorem LogM.Simulates.run_eq {x : LogM σ ε α} {y : LogM (σ × τ) ε α}
    (h : Simulates (fun state (kept : σ × τ) => state = kept.1) x y) (state : σ) (before : τ) :
    x.run state =
      let kept := y.run (state, before)
      ⟨kept.result, kept.log, kept.state.1⟩ := by
  obtain ⟨hresult, hlog, hstate⟩ := h state (state, before) rfl
  simp only [← hresult, ← hlog, ← hstate]

/-- Keeping the paths that a resolver is called with changes nothing else. -/
theorem Operand.run_compile_traced (treatment : Treatment) (resolver : Resolver σ) (o : Operand)
    (state : σ) (calls : List String) :
    (o.compile treatment resolver).run state =
      let traced := (o.compile treatment resolver.traced).run (state, calls)
      ⟨traced.result, traced.log, traced.state.1⟩ :=
  (compile_simulates resolver.simulates_traced treatment o).run_eq state calls

theorem Response.run_compile_traced (treatment : Treatment) (resolver : Resolver σ) (r : Response)
    (state : σ) (calls : List String) :
    (r.compile treatment resolver).run state =
      let traced := (r.compile treatment resolver.traced).run (state, calls)
      ⟨traced.result, traced.log, traced.state.1⟩ :=
  (compile_simulates resolver.simulates_traced treatment r).run_eq state calls

end AccessPlan
