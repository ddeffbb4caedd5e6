import AccessPlan.Proofs.Mirror
import AccessPlan.Proofs.Traversal

/-!
# The literals of conditions

A condition that relates a field to a literal is meant for a scalar, and only membership for a list.
The compiler does not see to it: the literal of a comparison becomes that of the condition whatever
it is, so the filters that keep to this are those of the plans that do.

* `Condition.Disciplined`, `Filter.Disciplined`: what is meant.
* `Operand.RelatesScalars`: the plans that keep to it. `relatesScalars_iff`: this can be checked.
* `Operand.disciplined_iff_relates_scalars`: a plan that compiles keeps to it if its filter does.
* `Operand.equality_with_list_compiles`: a plan on the wire that does not.
-/

namespace AccessPlan

/-- Whether the value is a scalar, which is neither a list nor an object. -/
def Json.isScalar : Json → Bool
  | .arr _ => false
  | .obj _ => false
  | _ => true

/-! ## Conditions and filters -/

/-- A condition with the literal that it is meant for. -/
structure Condition.Disciplined (c : Condition) : Prop where
  scalar : c.comparison ≠ .oneOf → c.operand.isScalar = true
  list : (∃ items, c.operand = .arr items) ↔ c.comparison = .oneOf

/-- A filter whose conditions have the literals that they are meant for, at any depth. -/
def Filter.Disciplined (filter : Filter) : Prop :=
  ∀ position name condition, filter.node? position = some (.field name condition) →
    condition.Disciplined

namespace Condition

theorem disciplined_oneOf (candidates : List Json) : (oneOf candidates).Disciplined where
  scalar h := absurd rfl h
  list := iff_of_true ⟨candidates, rfl⟩ rfl

theorem disciplined_relate_iff {relation : Relation} {literal : Json} :
    (relate relation literal).Disciplined ↔ literal.isScalar = true := by
  constructor
  · intro h
    exact h.scalar nofun
  · intro h
    refine ⟨fun _ => h, iff_of_false ?_ nofun⟩
    rintro ⟨items, rfl⟩
    cases h

end Condition

/-! ## Plans -/

namespace Operand

variable {σ : Type} {o node : Operand} {filter sub : Filter} {calls : History}
  {log : List LogEntry}

/-- The literal that a node relates a variable to. -/
def related? : Operand → Option Json
  | .expression (.compare (.relate _)) [.reference _, .literal value] => some value
  | _ => none

/-- A plan whose nodes relate variables to scalars, at any depth. What stands below a dead node is
of no account. -/
def RelatesScalars (o : Operand) : Prop :=
  ∀ position node, o.node? position = some node → ∀ value ∈ node.related?, value.isScalar = true

theorem relatesScalars_iff :
    o.RelatesScalars ↔ ∀ node ∈ o.nodes, ∀ value ∈ node.related?, value.isScalar = true := by
  constructor
  · intro h node hnode
    obtain ⟨position, hposition⟩ := mem_nodes_iff.1 hnode
    exact h position node hposition
  · intro h position node hposition
    exact h node (mem_nodes_iff.2 ⟨position, hposition⟩)

instance : DecidablePred RelatesScalars := fun _ => decidable_of_iff _ relatesScalars_iff.symm

theorem related?_of_obstacle? {obstacle : Obstacle} (h : o.obstacle? = some obstacle) :
    o.related? = none := by
  unfold related?
  split
  · cases h
  · rfl

/-- The condition of a node is as it is meant to be if the node relates its variable to a scalar. -/
theorem Mirrors.disciplined_iff (h : Mirrors [node] [sub] calls log) :
    (∀ name condition, sub = .field name condition → condition.Disciplined) ↔
      ∀ value ∈ node.related?, value.isScalar = true := by
  cases h with
  | and => exact iff_of_true nofun nofun
  | or => exact iff_of_true nofun nofun
  | dead hdead => exact iff_of_true nofun (by simp [related?_of_obstacle? hdead])
  | comparison c path name value =>
    cases c with
    | relate relation => simp [related?, Comparison.condition, Condition.disciplined_relate_iff]
    | oneOf => simp [related?, Comparison.condition, Condition.disciplined_oneOf]

/-- If a plan compiles, the conditions of its filter are as they are meant to be exactly if no
comparison of the plan relates a variable to a list or an object. -/
theorem disciplined_iff_relates_scalars (treatment : Treatment) (resolver : Resolver σ)
    (o : Operand) (state : σ) (filter : Filter)
    (h : ((o.compile treatment resolver).run state).result = .ok filter) :
    filter.Disciplined ↔ o.RelatesScalars := by
  rw [run_compile_noting treatment resolver o state []] at h
  obtain ⟨calls, -, hmirrors⟩ := leaves_compile h
  -- position by position, since a condition comes from the node that stands where it does
  constructor
  · intro hfilter position node hnode
    rcases hmirrors.node? position with ⟨hnone, -⟩ | ⟨node', sub, _, _, hnode', hsub, hbelow⟩
    · simp [hnone] at hnode
    · obtain rfl : node' = node := Option.some.inj (hnode'.symm.trans hnode)
      refine hbelow.disciplined_iff.1 ?_
      rintro name condition rfl
      exact hfilter position name condition hsub
  · intro hplan position name condition hsub
    obtain ⟨node, _, _, hnode, hbelow⟩ := hmirrors.exists_node hsub
    exact hbelow.disciplined_iff.2 (hplan position node hnode) name condition rfl

/-- Scalars keep a filter as it is meant to be, and so does a list of candidates. -/
theorem scalars_beside_candidates_disciplined :
    Filter.Disciplined (.allOf [.field "status" (.relate .differ (.str "void")),
      .anyOf [.field "owner" (.oneOf [.str "me", .arr []])]]) :=
  (disciplined_iff_relates_scalars .reject (.identity : Resolver Unit)
    (.expression .and [.comparison (.compare (.relate .differ)) "status" (.str "void"),
      .expression .or [.comparison (.compare .oneOf) "owner" (.arr [.str "me", .arr []])]])
    () _ rfl).2 (by decide)

/-- A field may be related to a list, even where plans are rejected that are not understood. -/
theorem equality_with_list_compiles :
    let plan := ofJson (.ofMembers [("expression", .ofMembers [("operator", .str "eq"),
      ("operands", .arr [.ofMembers [("variable", .str "status")],
        .ofMembers [("value", .arr [.str "open", .str "closed"])]])])])
    ∃ filter, ((plan.compile .reject (.identity : Resolver Unit)).run ()).result = .ok filter ∧
      ¬filter.Disciplined := by
  refine ⟨.field "status" (.relate .equal (.arr [.str "open", .str "closed"])), rfl, fun h => ?_⟩
  cases Condition.disciplined_relate_iff.1 (h [] _ _ rfl)

end Operand

end AccessPlan
