import AccessPlan.Proofs.Results

/-!
# The shape of compiled filters

A filter has the shape of the plan that it comes from: what stands at a position of the filter is
the filter of the node at this position of the plan.

* `Filter.node?`: the filter at a position.
* `Operand.exists_compile_of_branch`: the branches of a filter come from the branches of its plan.
* `Operand.exists_compile_of_node?`: so does everything below them.
* `Operand.node?_ne_empty_of_reject`: no filter without constraint is left where plans may be
  rejected.
-/

namespace AccessPlan

namespace Filter

/-- The filters right below a filter. -/
def branches : Filter → List Filter
  | .allOf filters => filters
  | .anyOf filters => filters
  | _ => []

/-- The filter at a position, which lists the indices on the way down from the root. -/
def node? : Filter → List Nat → Option Filter
  | f, [] => some f
  | f, index :: position => f.branches[index]?.bind fun child => child.node? position

end Filter

namespace Operand

variable {σ : Type} {treatment : Treatment} {resolver : Resolver σ}

/-- The filters of several plans stand in the order of the plans. -/
theorem exists_compile_of_compileAll {operands : List Operand} {state : σ} {filters : List Filter}
    (h : ((compileAll treatment resolver operands).run state).result = .ok filters)
    {index : Nat} {filter : Filter} (hfilter : filters[index]? = some filter) :
    ∃ o, operands[index]? = some o ∧
      ∃ reached, ((o.compile treatment resolver).run reached).result = .ok filter := by
  induction operands generalizing state filters index with
  | nil =>
    obtain rfl : [] = filters := Except.ok.inj h
    cases hfilter
  | cons o rest ih =>
    rw [compileAll_cons] at h
    obtain ⟨first, ho, h⟩ := LogM.result_bind_ok_iff.1 h
    obtain ⟨others, hrest, h⟩ := LogM.result_bind_ok_iff.1 h
    obtain rfl : first :: others = filters := Except.ok.inj h
    cases index with
    | zero =>
      obtain rfl : first = filter := Option.some.inj hfilter
      exact ⟨o, rfl, state, ho⟩
    | succ index => exact ih hrest hfilter

/-- A branch of a filter comes from the branch of the plan that has the same index. -/
theorem exists_compile_of_branch {o : Operand} {state : σ} {filter child : Filter}
    (h : ((o.compile treatment resolver).run state).result = .ok filter) {index : Nat}
    (hchild : filter.branches[index]? = some child) :
    ∃ p, o.branches[index]? = some p ∧
      ∃ reached, ((p.compile treatment resolver).run reached).result = .ok child := by
  cases ho : o.obstacle? with
  | some obstacle =>
    rw [compile_of_obstacle? _ _ ho] at h
    obtain ⟨-, rfl⟩ := Treatment.result_apply_ok_iff.1 h
    cases hchild
  | none =>
    cases alive_iff_obstacle?.2 ho with
    | and os =>
      rw [compile_and] at h
      obtain ⟨filters, hall, rfl⟩ := LogM.result_map_ok_iff.1 h
      exact exists_compile_of_compileAll hall hchild
    | or os =>
      rw [compile_or] at h
      obtain ⟨filters, hall, rfl⟩ := LogM.result_map_ok_iff.1 h
      exact exists_compile_of_compileAll hall hchild
    | comparison c path value =>
      rw [compile_comparison] at h
      obtain ⟨field, -, rfl⟩ := LogM.result_map_ok_iff.1 h
      cases hchild

/-- What stands at a position of a filter comes from the node at this position of the plan. -/
theorem exists_compile_of_node? {o : Operand} {state : σ} {filter sub : Filter}
    (h : ((o.compile treatment resolver).run state).result = .ok filter) {position : List Nat}
    (hsub : filter.node? position = some sub) :
    ∃ node, o.node? position = some node ∧
      ∃ reached, ((node.compile treatment resolver).run reached).result = .ok sub := by
  induction position generalizing o state filter with
  | nil =>
    obtain rfl : filter = sub := Option.some.inj hsub
    exact ⟨o, rfl, state, h⟩
  | cons index position ih =>
    rw [Filter.node?] at hsub
    obtain ⟨child, hchild, hsub⟩ := Option.bind_eq_some_iff.1 hsub
    obtain ⟨p, hp, reached, hcompile⟩ := exists_compile_of_branch h hchild
    obtain ⟨node, hnode, hreached⟩ := ih hcompile hsub
    exact ⟨node, by rw [node?, hp]; exact hnode, hreached⟩

/-- If plans may be rejected, no position of a filter is without constraint. -/
theorem node?_ne_empty_of_reject {o : Operand} {state : σ} {filter : Filter}
    (h : ((o.compile .reject resolver).run state).result = .ok filter) (position : List Nat) :
    filter.node? position ≠ some .empty := by
  intro hempty
  obtain ⟨node, -, reached, hnode⟩ := exists_compile_of_node? h hempty
  have hskip := (result_compile_eq_empty_iff.1 hnode).1
  cases hskip

end Operand

end AccessPlan
