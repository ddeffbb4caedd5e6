import AccessPlan.Proofs.Calls
import AccessPlan.Proofs.Visits

/-!
# The nodes of a plan in order

The nodes of a plan, listed depth first and from left to right: a node stands before the nodes below
it, and these before the nodes of its next sibling.

* `Operand.nodes`: the list. `nodes_eq`: a node, then the nodes of its branches.
* `mem_nodes_iff`: it lists the nodes at all positions. `allAlive_iff`: so a plan is alive if they
  all are.
* `Operand.asked?`: the path that a node asks the resolver for. `Operand.asked`: those of several
  nodes.
* `visits_eq_filterMap`: the visits of a plan are those of its nodes, in this order.
-/

namespace AccessPlan.Operand

mutual

/-- The nodes of a plan, depth first. -/
def nodes : Operand → List Operand
  | .expression .and operands => .expression .and operands :: nodesOf operands
  | .expression .or operands => .expression .or operands :: nodesOf operands
  | .expression (.compare c) operands => [.expression (.compare c) operands]
  | .expression (.other tag) operands => [.expression (.other tag) operands]
  | .reference path => [.reference path]
  | .literal value => [.literal value]
  | .unrecognized raw => [.unrecognized raw]
termination_by structural o => o

/-- The nodes of several plans, one plan after the other. -/
def nodesOf : List Operand → List Operand
  | [] => []
  | o :: rest => o.nodes ++ nodesOf rest
termination_by structural os => os

end

theorem nodesOf_eq_flatMap (os : List Operand) : nodesOf os = os.flatMap nodes := by
  induction os with
  | nil => rfl
  | cons o rest ih => rw [nodesOf, ih, List.flatMap_cons]

/-- A node comes first, and then the nodes of its branches from left to right. -/
theorem nodes_eq (o : Operand) : o.nodes = o :: o.branches.flatMap nodes := by
  cases o with
  | expression operator operands =>
    cases operator with
    | and => rw [nodes, nodesOf_eq_flatMap]; rfl
    | or => rw [nodes, nodesOf_eq_flatMap]; rfl
    | compare c => rfl
    | other tag => rfl
  | reference path => rfl
  | literal value => rfl
  | unrecognized raw => rfl

theorem branches_of_obstacle? {o : Operand} {obstacle : Obstacle}
    (h : o.obstacle? = some obstacle) : o.branches = [] := by
  unfold obstacle? at h
  split at h
  · cases h
  · cases h
  all_goals rfl

/-- A listed node has a position if those listed for the branches have one. -/
theorem exists_node?_of_mem_nodes {o node : Operand}
    (each : ∀ child ∈ o.branches, node ∈ child.nodes → ∃ position, child.node? position = some node)
    (h : node ∈ o.nodes) : ∃ position, o.node? position = some node := by
  rw [nodes_eq] at h
  rcases List.mem_cons.1 h with rfl | h
  · exact ⟨[], rfl⟩
  · obtain ⟨child, hchild, h⟩ := List.mem_flatMap.1 h
    obtain ⟨index, hindex⟩ := List.getElem?_of_mem hchild
    obtain ⟨position, hposition⟩ := each child hchild h
    exact ⟨index :: position, by rw [node?, hindex]; exact hposition⟩

/-- The list holds the nodes at all positions. -/
theorem mem_nodes_iff {o node : Operand} :
    node ∈ o.nodes ↔ ∃ position, o.node? position = some node := by
  constructor
  · -- a list does not tell where its nodes stand, hence by induction on the plan
    induction o using induct_nodes with
    | and os ih => exact exists_node?_of_mem_nodes ih
    | or os ih => exact exists_node?_of_mem_nodes ih
    | comparison c path value => exact exists_node?_of_mem_nodes (by simp [branches])
    | dead o obstacle h => exact exists_node?_of_mem_nodes (by simp [branches_of_obstacle? h])
  · rintro ⟨position, h⟩
    induction position generalizing o with
    | nil =>
      obtain rfl : o = node := Option.some.inj h
      rw [nodes_eq]
      exact List.mem_cons_self
    | cons index position ih =>
      rw [node?] at h
      obtain ⟨child, hchild, h⟩ := Option.bind_eq_some_iff.1 h
      rw [nodes_eq]
      exact List.mem_cons_of_mem _
        (List.mem_flatMap.2 ⟨child, List.mem_of_getElem? hchild, ih h⟩)

/-- A plan is alive throughout if all of its listed nodes are alive. -/
theorem allAlive_iff {o : Operand} : o.AllAlive ↔ ∀ node ∈ o.nodes, node.Alive := by
  constructor
  · intro h node hnode
    obtain ⟨position, hposition⟩ := mem_nodes_iff.1 hnode
    exact h position node hposition
  · intro h position node hposition
    exact h node (mem_nodes_iff.2 ⟨position, hposition⟩)

/-! ## What the nodes ask for -/

/-- The path that a node asks the resolver for, if it is the comparison of a variable with a
literal. -/
def asked? : Operand → Option String
  | .expression (.compare _) [.reference path, .literal _] => some path
  | _ => none

/-- The paths that nodes ask the resolver for, in order. -/
def asked (nodes : List Operand) : List String := nodes.filterMap asked?

/-- What the compiler has to do at a node. -/
def visit? : Operand → Option Visit
  | .expression (.compare c) [.reference path, .literal value] => some (.ask c path value)
  | o => o.obstacle?.map .meet

theorem asked?_eq_some_iff {o : Operand} {path : String} :
    o.asked? = some path ↔
      ∃ c value, o = .expression (.compare c) [.reference path, .literal value] := by
  constructor
  · intro h
    unfold asked? at h
    split at h
    · obtain rfl := Option.some.inj h
      exact ⟨_, _, rfl⟩
    · cases h
  · rintro ⟨c, value, rfl⟩
    rfl

theorem asked_append (front back : List Operand) :
    asked (front ++ back) = asked front ++ asked back :=
  List.filterMap_append

theorem visit?_of_obstacle? {o : Operand} {obstacle : Obstacle}
    (h : o.obstacle? = some obstacle) : o.visit? = some (.meet obstacle) := by
  unfold visit?
  split
  · cases h
  · rw [h]
    rfl

theorem visitsOf_eq_filterMap {os : List Operand}
    (each : ∀ o ∈ os, o.visits = o.nodes.filterMap visit?) :
    visitsOf os = (nodesOf os).filterMap visit? := by
  induction os with
  | nil => rfl
  | cons o rest ih =>
    rw [visitsOf, nodesOf, List.filterMap_append, each o List.mem_cons_self,
      ih fun p hp => each p (List.mem_cons_of_mem o hp)]

/-- The visits of a plan are those of its nodes in order. -/
theorem visits_eq_filterMap (o : Operand) : o.visits = o.nodes.filterMap visit? := by
  induction o using induct_nodes with
  | and os ih =>
    rw [visits, nodes, visitsOf_eq_filterMap ih]
    rfl
  | or os ih =>
    rw [visits, nodes, visitsOf_eq_filterMap ih]
    rfl
  | comparison c path value => rfl
  | dead o obstacle h =>
    rw [visits_of_obstacle? h, nodes_eq, branches_of_obstacle? h]
    simp [visit?_of_obstacle? h]

end AccessPlan.Operand
