import AccessPlan.Filter.Meaning

/-!
# Filters put together two at a time

Constraints come in one after the other and are put together as they come: behind what is there, in
front of it, or in parts that are put together later. All these ways admit the same rows and name
the same fields in the same order. What they leave is one conjunction for each pair of brackets,
once the filters without constraint have been deleted.

* `Bracketing`: filters in brackets. `Bracketing.merged`: what they are put together to.
* `Bracketing.pruned`: the bracketing without the filters that place no constraint.
  `Bracketing.Tight`: a bracketing that has nothing to delete.
* `merged_pruned`, `merged_eq_nested_pruned`: what is put together is the conjunctions of the pruned
  bracketing.
* `Bracketing.appended`, `Bracketing.prepended`: constraints put behind what is there, or in front
  of it. `merged_appended`, `merged_prepended`: these are the two folds.
* `Bracketing.merging_keeps_constraints`: what the brackets mean for the rows and the fields, and
  that either fold means the same (`Bracketing.Merges`).
-/

namespace AccessPlan

/-- Filters that admit the same rows, whatever the comparisons mean. -/
def Filter.Equivalent (f g : Filter) : Prop :=
  ∀ (i : Interpretation) (row : String → Json), f.Admits i row ↔ g.Admits i row

/-- Filters to be put together two at a time, in order. -/
inductive Bracketing where
  /-- No filter at all. -/
  | nothing
  /-- One filter. -/
  | single (filter : Filter)
  /-- What is in the brackets on the left, and what is in those on the right. -/
  | both (left right : Bracketing)

namespace Bracketing

/-- The filters, from left to right. -/
def filters : Bracketing → List Filter
  | .nothing => []
  | .single filter => [filter]
  | .both left right => left.filters ++ right.filters

/-- The filters put together as the brackets say. -/
def merged : Bracketing → Filter
  | .nothing => .empty
  | .single filter => filter
  | .both left right => left.merged.and right.merged

/-! ## Deleting what places no constraint -/

/-- Two bracketings in brackets; one with nothing in it leaves no brackets. -/
def join : Bracketing → Bracketing → Bracketing
  | .nothing, right => right
  | left, .nothing => left
  | left, right => .both left right

/-- The bracketing with the filters without constraint deleted. -/
def pruned : Bracketing → Bracketing
  | .nothing => .nothing
  | .single filter => if filter.isEmpty then .nothing else .single filter
  | .both left right => left.pruned.join right.pruned

/-- The conjunctions that the brackets stand for, one for each pair. -/
def nested : Bracketing → Filter
  | .nothing => .empty
  | .single filter => filter
  | .both left right => .allOf [left.nested, right.nested]

/-- There are filters in all brackets, and each of them places a constraint. -/
inductive Tight : Bracketing → Prop where
  | single {filter : Filter} (h : filter ≠ .empty) : Tight (.single filter)
  | both {left right : Bracketing} (hleft : left.Tight) (hright : right.Tight) :
      Tight (.both left right)

variable {a b : Bracketing}

@[simp] theorem join_nothing (b : Bracketing) : b.join .nothing = b := by cases b <;> rfl

@[simp] theorem nothing_join (b : Bracketing) : nothing.join b = b := rfl

theorem filters_join (a b : Bracketing) : (a.join b).filters = a.filters ++ b.filters := by
  cases a <;> cases b <;> simp [join, filters]

theorem Tight.join (ha : a.Tight) (hb : b.Tight) : a.join b = .both a b := by
  cases ha <;> cases hb <;> rfl

theorem Tight.nested_ne_empty (h : b.Tight) : b.nested ≠ .empty := by
  cases h with
  | single h => exact h
  | both hleft hright => exact nofun

/-- What remains are the filters that place a constraint, in order. -/
theorem filters_pruned (b : Bracketing) :
    b.pruned.filters = b.filters.filter fun filter => !filter.isEmpty := by
  induction b with
  | nothing => rfl
  | single filter => cases h : filter.isEmpty <;> simp [pruned, filters, h]
  | both left right ihleft ihright =>
    rw [pruned, filters_join, ihleft, ihright, filters, List.filter_append]

/-- Deleting leaves nothing, or nothing to delete. -/
theorem pruned_eq_nothing_or_tight (b : Bracketing) : b.pruned = .nothing ∨ b.pruned.Tight := by
  induction b with
  | nothing => exact .inl rfl
  | single filter =>
    rw [pruned]
    split
    · exact .inl rfl
    · rename_i h
      exact .inr (.single fun hempty => h (Filter.isEmpty_iff.2 hempty))
  | both left right ihleft ihright =>
    rw [pruned]
    rcases ihleft with hleft | hleft
    · rw [hleft, nothing_join]
      exact ihright
    · rcases ihright with hright | hright
      · rw [hright, join_nothing]
        exact .inr hleft
      · rw [hleft.join hright]
        exact .inr (.both hleft hright)

/-! ## What is put together -/

theorem merged_join (a b : Bracketing) : (a.join b).merged = a.merged.and b.merged := by
  cases a <;> cases b <;> simp [join, merged]

/-- Deleting the filters without constraint first changes nothing. -/
theorem merged_pruned (b : Bracketing) : b.pruned.merged = b.merged := by
  induction b with
  | nothing => rfl
  | single filter =>
    rw [pruned]
    split
    · rename_i h
      exact (Filter.isEmpty_iff.1 h).symm
    · rfl
  | both left right ihleft ihright => rw [pruned, merged_join, ihleft, ihright, merged]

theorem Tight.merged_eq_nested (h : b.Tight) : b.merged = b.nested := by
  induction h with
  | single h => rfl
  | both hleft hright ihleft ihright =>
    rw [merged, ihleft, ihright, nested,
      Filter.and_of_ne_empty hleft.nested_ne_empty hright.nested_ne_empty]

/-- What is put together is one conjunction for each pair of brackets that is left when the filters
without constraint have been deleted. -/
theorem merged_eq_nested_pruned (b : Bracketing) : b.merged = b.pruned.nested := by
  rw [← merged_pruned]
  rcases b.pruned_eq_nothing_or_tight with h | h
  · rw [h]
    rfl
  · exact h.merged_eq_nested

theorem merged_eq_empty_iff (b : Bracketing) :
    b.merged = .empty ↔ ∀ filter ∈ b.filters, filter = .empty := by
  induction b with
  | nothing => simp [merged, filters]
  | single filter => simp [merged, filters]
  | both left right ihleft ihright =>
    rw [merged, Filter.and_eq_empty_iff, ihleft, ihright, filters, List.forall_mem_append]

theorem fieldNames_merged (b : Bracketing) :
    b.merged.fieldNames = b.filters.flatMap Filter.fieldNames := by
  induction b with
  | nothing => rfl
  | single filter => simp [merged, filters]
  | both left right ihleft ihright =>
    rw [merged, Filter.fieldNames_and, ihleft, ihright, filters, List.flatMap_append]

theorem admits_merged (b : Bracketing) {i : Interpretation} {row : String → Json} :
    b.merged.Admits i row ↔ ∀ filter ∈ b.filters, filter.Admits i row := by
  induction b with
  | nothing => simp [merged, filters]
  | single filter => simp [merged, filters]
  | both left right ihleft ihright =>
    rw [merged, Filter.admits_and, ihleft, ihright, filters, List.forall_mem_append]

/-- Other brackets around the same filters make an equivalent filter with the same fields. -/
theorem merged_alike (h : a.filters = b.filters) :
    a.merged.Equivalent b.merged ∧ a.merged.fieldNames = b.merged.fieldNames := by
  refine ⟨fun i row => ?_, ?_⟩
  · rw [admits_merged, admits_merged, h]
  · rw [fieldNames_merged, fieldNames_merged, h]

/-! ## Step by step -/

/-- A filter put behind what is there. -/
def add (b : Bracketing) (filter : Filter) : Bracketing := .both b (.single filter)

/-- Each filter is put behind what is there. -/
def appended (fs : List Filter) : Bracketing := fs.foldl add .nothing

/-- Each filter is put in front of what is there, the last one first. -/
def prepended (fs : List Filter) : Bracketing :=
  fs.foldr (fun filter b => .both (.single filter) b) .nothing

theorem filters_foldl_add (fs : List Filter) (b : Bracketing) :
    (fs.foldl add b).filters = b.filters ++ fs := by
  induction fs generalizing b with
  | nil => simp
  | cons filter rest ih =>
    rw [List.foldl_cons, ih, add, filters, filters, List.append_assoc, List.singleton_append]

theorem merged_foldl_add (fs : List Filter) (b : Bracketing) :
    (fs.foldl add b).merged = fs.foldl Filter.and b.merged := by
  induction fs generalizing b with
  | nil => rfl
  | cons filter rest ih => exact ih (b.add filter)

theorem filters_appended (fs : List Filter) : (appended fs).filters = fs :=
  filters_foldl_add fs .nothing

theorem merged_appended (fs : List Filter) : (appended fs).merged = fs.foldl Filter.and .empty :=
  merged_foldl_add fs .nothing

theorem filters_prepended (fs : List Filter) : (prepended fs).filters = fs := by
  induction fs with
  | nil => rfl
  | cons filter rest ih => exact congrArg (List.cons filter) ih

theorem merged_prepended (fs : List Filter) :
    (prepended fs).merged = fs.foldr Filter.and .empty := by
  induction fs with
  | nil => rfl
  | cons filter rest ih => exact congrArg filter.and ih

/-! ## All brackets -/

/-- What becomes of filters that are put together in brackets. -/
structure Merges (b : Bracketing) : Prop where
  /-- They place no constraint exactly if none of them does. -/
  unconstrained : b.merged = .empty ↔ ∀ filter ∈ b.filters, filter = .empty
  /-- Deleting the filters without constraint leaves the others in order. -/
  remaining : b.pruned.filters = b.filters.filter fun filter => !filter.isEmpty
  /-- It leaves nothing, or nothing to delete. -/
  tight : b.pruned = .nothing ∨ b.pruned.Tight
  /-- It may be done before the filters are put together. -/
  pruned : b.merged = b.pruned.merged
  /-- There is one conjunction for each pair of brackets that it leaves. -/
  nested : b.merged = b.pruned.nested
  fieldNames : b.merged.fieldNames = b.filters.flatMap Filter.fieldNames
  admits : ∀ (i : Interpretation) (row : String → Json),
    b.merged.Admits i row ↔ ∀ filter ∈ b.filters, filter.Admits i row
  /-- Other brackets around the same filters make an equivalent filter with the same fields. -/
  rebracketed : ∀ c : Bracketing, c.filters = b.filters →
    c.merged.Equivalent b.merged ∧ c.merged.fieldNames = b.merged.fieldNames
  /-- So does putting each filter behind what is there. -/
  appended :
    let steps := b.filters.foldl Filter.and .empty
    steps.Equivalent b.merged ∧ steps.fieldNames = b.merged.fieldNames
  /-- So does putting each filter in front of what is there. -/
  prepended :
    let steps := b.filters.foldr Filter.and .empty
    steps.Equivalent b.merged ∧ steps.fieldNames = b.merged.fieldNames

/-- Whatever the brackets, filters that are put together keep their constraints and their fields. -/
theorem merging_keeps_constraints (b : Bracketing) : Merges b where
  unconstrained := b.merged_eq_empty_iff
  remaining := b.filters_pruned
  tight := b.pruned_eq_nothing_or_tight
  pruned := b.merged_pruned.symm
  nested := b.merged_eq_nested_pruned
  fieldNames := b.fieldNames_merged
  admits _ _ := b.admits_merged
  rebracketed _ h := merged_alike h
  appended := by
    have h := merged_alike (filters_appended b.filters)
    rwa [merged_appended] at h
  prepended := by
    have h := merged_alike (filters_prepended b.filters)
    rwa [merged_prepended] at h

/-- Constraints added on either side make different conjunctions of the same meaning. A filter
without constraint leaves no trace in them, a conjunction of nothing does. -/
theorem merging_keeps_constraints_of_steps :
    let owner := Filter.field "owner" (.relate .equal (.str "me"))
    let isOpen := Filter.field "open" (.relate .equal (.bool true))
    let fs := [owner, .empty, .allOf [], isOpen]
    (prepended fs).filters = (appended fs).filters ∧
      (appended fs).merged = .allOf [.allOf [owner, .allOf []], isOpen] ∧
      (prepended fs).merged = .allOf [owner, .allOf [.allOf [], isOpen]] ∧
      (prepended fs).merged.Equivalent (appended fs).merged ∧
      (prepended fs).merged.fieldNames = (appended fs).merged.fieldNames ∧
      (appended fs).merged.fieldNames = ["owner", "open"] := by
  intro owner isOpen fs
  have h : (prepended fs).filters = (appended fs).filters := rfl
  obtain ⟨hequivalent, hnames⟩ := (merging_keeps_constraints (appended fs)).rebracketed _ h
  exact ⟨h, rfl, rfl, hequivalent, hnames, (merging_keeps_constraints (appended fs)).fieldNames⟩

end Bracketing

end AccessPlan
