import AccessPlan.Proofs.Shape
import Mathlib.Data.List.Forall2

/-!
# Items at the positions of a plan

A plan and its filter are gone through side by side, and at some positions there is something to put
down, such as a call or an entry of the log.

* `InOrder`: a list of items, one for each of certain positions, in depth-first order.
* `Operand.Lists`: a list of all that there is to put down for a plan and its filter.
* `Operand.listsFrom_cons`: the list for the first of several plans comes before the list for the
  others. `Operand.lists_of_branches`, `lists_leaf`, `lists_none`: the list for one plan.
-/

namespace AccessPlan

variable {α : Type}

/-- There is one item for each of the positions, in depth-first order: a position stands before
those that lead further down from it, and these before the ones that branch off to the right. -/
def InOrder (here : List Nat → Prop) (belongs : List Nat → α → Prop) (items : List α) : Prop :=
  ∃ positions : List (List Nat), positions.Pairwise (· < ·) ∧
    (∀ position, position ∈ positions ↔ here position) ∧ List.Forall₂ belongs positions items

theorem InOrder.congr {here here' : List Nat → Prop} {belongs : List Nat → α → Prop}
    {items : List α} (h : InOrder here belongs items)
    (hiff : ∀ position, here position ↔ here' position) : InOrder here' belongs items := by
  obtain ⟨positions, hascending, hmem, hitems⟩ := h
  exact ⟨positions, hascending, fun position => (hmem position).trans (hiff position), hitems⟩

namespace Operand

/-- An item that belongs to the nodes that a plan and its filter have at a position. -/
def At (q : Operand → Filter → α → Prop) (o : Operand) (f : Filter) (position : List Nat)
    (item : α) : Prop :=
  ∃ node sub, o.node? position = some node ∧ f.node? position = some sub ∧ q node sub item

/-- The same for several plans and their filters, counted from an index. -/
def AtFrom (q : Operand → Filter → α → Prop) (index : Nat) (os : List Operand) (fs : List Filter)
    (position : List Nat) (item : α) : Prop :=
  ∃ k rest o f, position = (index + k) :: rest ∧ os[k]? = some o ∧ fs[k]? = some f ∧
    At q o f rest item

/-- The items of a plan and its filter are listed in order. -/
def Lists (q : Operand → Filter → α → Prop) (o : Operand) (f : Filter) (items : List α) : Prop :=
  InOrder (fun position => ∃ item, At q o f position item) (At q o f) items

/-- The items of several plans and their filters are listed in order. -/
def ListsFrom (q : Operand → Filter → α → Prop) (index : Nat) (os : List Operand)
    (fs : List Filter) (items : List α) : Prop :=
  InOrder (fun position => ∃ item, AtFrom q index os fs position item) (AtFrom q index os fs) items

variable {q : Operand → Filter → α → Prop} {o : Operand} {f : Filter} {os : List Operand}
  {fs : List Filter} {index : Nat} {item : α} {items others : List α} {position : List Nat}

theorem at_nil_iff : At q o f [] item ↔ q o f item := by
  simp [At, node?, Filter.node?]

theorem at_cons_iff :
    At q o f (index :: position) item ↔
      ∃ p g, o.branches[index]? = some p ∧ f.branches[index]? = some g ∧
        At q p g position item := by
  simp only [At, node?, Filter.node?, Option.bind_eq_some_iff]
  constructor
  · rintro ⟨node, sub, ⟨p, hp, hnode⟩, ⟨g, hg, hsub⟩, h⟩
    exact ⟨p, g, hp, hg, node, sub, hnode, hsub, h⟩
  · rintro ⟨p, g, hp, hg, node, sub, hnode, hsub, h⟩
    exact ⟨node, sub, ⟨p, hp, hnode⟩, ⟨g, hg, hsub⟩, h⟩

theorem atFrom_cons_iff :
    AtFrom q index (o :: os) (f :: fs) position item ↔
      (∃ rest, position = index :: rest ∧ At q o f rest item) ∨
        AtFrom q (index + 1) os fs position item := by
  constructor
  · rintro ⟨k, rest, p, g, rfl, hp, hg, h⟩
    cases k with
    | zero =>
      obtain rfl := Option.some.inj hp
      obtain rfl := Option.some.inj hg
      exact .inl ⟨rest, rfl, h⟩
    | succ k => exact .inr ⟨k, rest, p, g, by rw [Nat.add_right_comm, Nat.add_assoc], hp, hg, h⟩
  · rintro (⟨rest, rfl, h⟩ | ⟨k, rest, p, g, rfl, hp, hg, h⟩)
    · exact ⟨0, rest, o, f, rfl, rfl, rfl, h⟩
    · exact ⟨k + 1, rest, p, g, by rw [Nat.add_right_comm, Nat.add_assoc], hp, hg, h⟩

theorem listsFrom_nil : ListsFrom q index [] [] [] :=
  ⟨[], .nil, by simp [AtFrom], .nil⟩

/-- The items of the first plan come before those of the plans that follow it. -/
theorem listsFrom_cons (hfirst : Lists q o f items) (hrest : ListsFrom q (index + 1) os fs others) :
    ListsFrom q index (o :: os) (f :: fs) (items ++ others) := by
  obtain ⟨inside, hinside, hin, hitems⟩ := hfirst
  obtain ⟨after, hafter, hout, hothers⟩ := hrest
  refine ⟨inside.map (index :: ·) ++ after, ?_, fun position => ?_, List.rel_append ?_ ?_⟩
  · -- the positions of the first plan start with `index`, those of the others with more
    rw [List.pairwise_append, List.pairwise_map]
    refine ⟨hinside.imp fun h => List.cons_lt_cons_iff.2 (.inr ⟨rfl, h⟩), hafter, ?_⟩
    intro first hmem later hlater
    obtain ⟨rest, -, rfl⟩ := List.mem_map.1 hmem
    obtain ⟨item, k, rest', -, -, rfl, -⟩ := (hout later).1 hlater
    exact List.cons_lt_cons_iff.2 (.inl (by omega))
  · simp only [List.mem_append, List.mem_map, hin, hout, atFrom_cons_iff, exists_or]
    refine or_congr_left ⟨?_, ?_⟩
    · rintro ⟨rest, ⟨item, h⟩, rfl⟩
      exact ⟨item, rest, rfl, h⟩
    · rintro ⟨item, rest, rfl, h⟩
      exact ⟨rest, ⟨item, h⟩, rfl⟩
  · rw [List.forall₂_map_left_iff]
    exact hitems.imp fun rest item h => atFrom_cons_iff.2 (.inl ⟨rest, rfl, h⟩)
  · exact hothers.imp fun position item h => atFrom_cons_iff.2 (.inr h)

/-- The items of a single plan. -/
theorem lists_of_listsFrom (h : ListsFrom q index [o] [f] items) : Lists q o f items := by
  obtain ⟨positions, hascending, hmem, hitems⟩ := h
  have hat : ∀ position item,
      AtFrom q index [o] [f] position item ↔
        ∃ rest, position = index :: rest ∧ At q o f rest item := by
    intro position item
    rw [atFrom_cons_iff, or_iff_left (by simp [AtFrom])]
  -- all positions start with `index`; without it they are those of the plan
  obtain ⟨inside, rfl⟩ : ∃ inside : List (List Nat), positions = inside.map (index :: ·) := by
    refine ⟨positions.map List.tail, ?_⟩
    rw [List.map_map]
    refine (List.map_id positions).symm.trans (List.map_congr_left fun position h => ?_)
    obtain ⟨item, hitem⟩ := (hmem position).1 h
    obtain ⟨rest, rfl, -⟩ := (hat position item).1 hitem
    rfl
  rw [List.pairwise_map] at hascending
  rw [List.forall₂_map_left_iff] at hitems
  refine ⟨inside, hascending.imp fun h => ?_, fun position => ?_, hitems.imp fun rest item h => ?_⟩
  · exact (List.cons_lt_cons_iff.1 h).resolve_left (Nat.lt_irrefl index) |>.2
  · simpa [hat] using hmem (index :: position)
  · simpa [hat] using h

/-- If nothing belongs to a plan itself, its items are those of its branches. -/
theorem lists_of_branches (hroot : ∀ item, ¬q o f item)
    (h : ListsFrom q 0 o.branches f.branches items) : Lists q o f items := by
  have heq : At q o f = AtFrom q 0 o.branches f.branches := by
    funext position item
    cases position with
    | nil => simp [at_nil_iff, hroot, AtFrom]
    | cons index rest => simp [at_cons_iff, AtFrom]
  rwa [Lists, heq]

/-- A plan without branches has the one item that belongs to it. -/
theorem lists_leaf (ho : o.branches = []) (h : q o f item) : Lists q o f [item] := by
  refine ⟨[[]], List.pairwise_singleton _ _, fun position => ?_, .cons (at_nil_iff.2 h) .nil⟩
  cases position with
  | nil => simpa [at_nil_iff] using ⟨item, h⟩
  | cons index rest => simp [at_cons_iff, ho]

/-- If nothing belongs to a plan without branches, it has no item. -/
theorem lists_none (ho : o.branches = []) (h : ∀ item, ¬q o f item) : Lists q o f [] := by
  refine ⟨[], .nil, fun position => ?_, .nil⟩
  cases position with
  | nil => simp [at_nil_iff, h]
  | cons index rest => simp [at_cons_iff, ho]

end Operand

end AccessPlan
