import AccessPlan.Compile
import AccessPlan.Proofs.Except
import AccessPlan.Proofs.Nodes

/-!
# Results of compiling, node by node

The equations by which the other modules open the compiler, one for each kind of node.

* `LogM.result_bind_ok_iff`, `LogM.result_map_ok_iff`: when a computation in two steps gives a
  value.
* `Treatment.result_apply_ok_iff`: a node without filter gives one only if it is skipped.
* `Operand.compile_and`, `compile_or`, `compile_comparison`: the filters of nodes that are alive.
* `Operand.compile_of_obstacle?`: a dead node is left to the treatment.
* `Operand.result_compile_eq_empty_iff`: only a dead plan compiles to the filter without constraint.
-/

namespace AccessPlan

namespace LogM

variable {σ ε α β : Type}

theorem result_bind_ok_iff {x : LogM σ ε α} {next : α → LogM σ ε β} {state : σ} {value : β} :
    ((x >>= next).run state).result = .ok value ↔
      ∃ first, (x.run state).result = .ok first ∧
        ((next first).run (x.run state).state).result = .ok value := by
  rw [run_bind]
  cases (x.run state).result with
  | error e => simp
  | ok first => simp

theorem result_map_ok_iff {f : α → β} {x : LogM σ ε α} {state : σ} {value : β} :
    ((f <$> x).run state).result = .ok value ↔
      ∃ first, (x.run state).result = .ok first ∧ f first = value := by
  rw [run_map]
  exact Except.map_eq_ok_iff

end LogM

namespace Treatment

variable {σ : Type}

theorem run_apply_skip (obstacle : Obstacle) (state : σ) :
    (skip.apply obstacle).run state = ⟨.ok .empty, [.skipped obstacle], state⟩ := rfl

theorem run_apply_reject (obstacle : Obstacle) (state : σ) :
    (reject.apply obstacle).run state = ⟨.error (.untranslatable obstacle), [], state⟩ := rfl

theorem result_apply_ok_iff {treatment : Treatment} {obstacle : Obstacle} {state : σ}
    {filter : Filter} :
    ((treatment.apply obstacle).run state).result = .ok filter ↔
      treatment = .skip ∧ filter = .empty := by
  cases treatment with
  | skip => simp [run_apply_skip, eq_comm]
  | reject => simp [run_apply_reject]

end Treatment

namespace Operand

variable {σ : Type} (treatment : Treatment) (resolver : Resolver σ)

theorem run_resolveField (path : String) (state : σ) :
    (resolveField resolver path).run state =
      ⟨(resolver path state).1.mapError .resolver, [], (resolver path state).2⟩ := rfl

theorem run_resolveField_ok {path field : String} {state after : σ}
    (h : resolver path state = (.ok field, after)) :
    (resolveField resolver path).run state = ⟨.ok field, [], after⟩ := by
  rw [run_resolveField, h]
  rfl

theorem run_resolveField_error {path : String} {e : ResolveError} {state after : σ}
    (h : resolver path state = (.error e, after)) :
    (resolveField resolver path).run state = ⟨.error (.resolver e), [], after⟩ := by
  rw [run_resolveField, h]
  rfl

theorem result_resolveField_ok_iff {path field : String} {state : σ} :
    ((resolveField resolver path).run state).result = .ok field ↔
      (resolver path state).1 = .ok field := by
  rw [run_resolveField]
  cases (resolver path state).1 with
  | error e => exact ⟨nofun, nofun⟩
  | ok found =>
    constructor
    · exact fun h => congrArg Except.ok (Except.ok.inj h)
    · exact fun h => congrArg Except.ok (Except.ok.inj h)

theorem compile_and (operands : List Operand) :
    (expression .and operands).compile treatment resolver =
      Filter.allOf <$> compileAll treatment resolver operands := rfl

theorem compile_or (operands : List Operand) :
    (expression .or operands).compile treatment resolver =
      Filter.anyOf <$> compileAll treatment resolver operands := rfl

theorem compile_comparison (c : Comparison) (path : String) (value : Json) :
    (expression (.compare c) [.reference path, .literal value]).compile treatment resolver =
      (fun field => Filter.field field (c.condition value)) <$> resolveField resolver path := rfl

theorem compile_of_obstacle? {o : Operand} {obstacle : Obstacle} (h : o.obstacle? = some obstacle) :
    o.compile treatment resolver = treatment.apply obstacle := by
  unfold obstacle? at h
  split at h
  · cases h
  · cases h
  · cases h
  · -- a comparison is dead by what it compares, so that its operands have to be looked at
    rename_i c operands hshape
    obtain rfl : Obstacle.comparison = obstacle := Option.some.inj h
    rw [compile]
    unfold compileComparison
    split
    · exact absurd rfl (hshape _ _)
    · rfl
  all_goals
    obtain rfl := Option.some.inj h
    rfl

theorem compileAll_cons (o : Operand) (rest : List Operand) :
    compileAll treatment resolver (o :: rest) = (do
      let filter ← o.compile treatment resolver
      let filters ← compileAll treatment resolver rest
      return filter :: filters) := rfl

variable {treatment resolver}

/-- A plan compiles to the filter without constraint only if it is dead and skipped. -/
theorem result_compile_eq_empty_iff {o : Operand} {state : σ} :
    ((o.compile treatment resolver).run state).result = .ok .empty ↔
      treatment = .skip ∧ o.Dead := by
  cases h : o.obstacle? with
  | some obstacle =>
    rw [compile_of_obstacle? _ _ h, Treatment.result_apply_ok_iff, dead_iff_obstacle?, h]
    simp
  | none =>
    have halive := alive_iff_obstacle?.2 h
    have hnot : ((o.compile treatment resolver).run state).result ≠ .ok .empty := by
      cases halive with
      | and os => simp [compile_and, LogM.result_map_ok_iff]
      | or os => simp [compile_or, LogM.result_map_ok_iff]
      | comparison c path value => simp [compile_comparison, LogM.result_map_ok_iff]
    exact iff_of_false hnot fun hd => hd.2 halive

end Operand

end AccessPlan
