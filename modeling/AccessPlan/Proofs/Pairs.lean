import AccessPlan.Dict.Lemmas
import Mathlib.Data.List.Dedup

/-!
# The pairs of a dictionary

A dictionary and the list of its pairs, in which no key stands twice.

* `Entries.keys_nodup`, `Entries.mem_toList_iff`: the pairs are what look-ups find.
* `Entries.size_eq_length_dedup`: the number of entries.
* `Dict.ofList_of_perm`: the pairs make the dictionary in any order.
-/

namespace AccessPlan

/-- If no key stands twice among pairs, a look-up finds each of them. -/
theorem lookup_eq_some_iff_mem {α : Type} {pairs : List (String × α)}
    (h : (pairs.map Prod.fst).Nodup) {k : String} {v : α} :
    pairs.lookup k = some v ↔ (k, v) ∈ pairs := by
  induction pairs with
  | nil => simp
  | cons pair rest ih =>
    obtain ⟨key, value⟩ := pair
    obtain ⟨hfresh, hrest⟩ := List.nodup_cons.1 h
    rw [List.lookup_cons, List.mem_cons, Prod.mk.injEq]
    by_cases hk : k = key
    · subst hk
      have hnot : (k, v) ∉ rest := fun hmem => hfresh (List.mem_map.2 ⟨_, hmem, rfl⟩)
      simp [hnot, eq_comm]
    · have hb : (k == key) = false := by simpa using hk
      simp [hb, hk, ih hrest]

namespace Entries

variable {α : Type} {bound : Option String} {k : String}

theorem get?_bound (entries : Entries α (some k)) : entries.get? k = none :=
  get?_eq_none_of_below entries fun h => ne_of_above h rfl

/-- Each key stands once among the pairs, so that they can be searched from either end. -/
theorem lookup_reverse_toList (entries : Entries α bound) (k : String) :
    entries.toList.reverse.lookup k = entries.get? k := by
  induction entries with
  | nil => rfl
  | cons key above value rest ih =>
    rw [toList, List.reverse_cons, List.lookup_append, ih, get?_cons, List.lookup_cons]
    by_cases h : k = key
    · subst h
      rw [get?_bound]
      simp
    · have hb : (k == key) = false := by simpa using h
      simp [h, hb]

/-- A property of all entries is one of the first and of those that follow. -/
theorem forall_get?_cons_iff {p : String → α → Prop} {key : String} {above : Above bound key}
    {value : α} {rest : Entries α (some key)} :
    (∀ k v, (Entries.cons key above value rest).get? k = some v → p k v) ↔
      p key value ∧ ∀ k v, rest.get? k = some v → p k v := by
  constructor
  · intro h
    refine ⟨h key value (by simp [get?]), fun k v hv => h k v ?_⟩
    have hne : k ≠ key := by
      rintro rfl
      rw [get?_bound] at hv
      cases hv
    rw [get?, if_neg hne, hv]
  · rintro ⟨hfirst, hrest⟩ k v hv
    rw [get?] at hv
    split at hv
    · rename_i hk
      subst hk
      cases hv
      exact hfirst
    · exact hrest k v hv

theorem keys_nodup (entries : Entries α bound) : entries.keys.Nodup := by
  induction entries with
  | nil => exact List.nodup_nil
  | cons key above value rest ih =>
    refine List.nodup_cons.2 ⟨?_, ih⟩
    rw [mem_keys_iff, get?_bound]
    simp

theorem length_keys (entries : Entries α bound) : entries.keys.length = entries.size := by
  rw [keys_eq_map_toList, List.length_map, size_eq_length_toList]

/-- If something is stored at the keys of a list and at no others, there are as many entries as
different keys in the list. -/
theorem size_eq_length_dedup {entries : Entries α bound} {keys : List String}
    (h : ∀ k, (entries.get? k).isSome ↔ k ∈ keys) : entries.size = keys.dedup.length := by
  have hmem : ∀ k, k ∈ entries.keys ↔ k ∈ keys.dedup := by
    intro k
    rw [mem_keys_iff, List.mem_dedup, h]
  have hperm := (List.perm_ext_iff_of_nodup entries.keys_nodup (List.nodup_dedup _)).2 hmem
  rw [← hperm.length_eq, length_keys]

theorem mem_toList_iff (entries : Entries α bound) (k : String) (v : α) :
    (k, v) ∈ entries.toList ↔ entries.get? k = some v := by
  rw [← lookup_reverse_toList, lookup_eq_some_iff_mem, List.mem_reverse]
  rw [List.map_reverse, List.nodup_reverse, ← keys_eq_map_toList]
  exact entries.keys_nodup

end Entries

namespace Dict

variable {α : Type} {d : Dict α}

/-- A dictionary is made of its pairs in any order. -/
theorem ofList_of_perm {pairs : List (String × α)} (h : pairs.Perm d.toList) :
    ofList pairs = d := by
  have hkeys : (pairs.reverse.map Prod.fst).Nodup := by
    rw [List.map_reverse, List.nodup_reverse, (h.map Prod.fst).nodup_iff,
      ← Entries.keys_eq_map_toList]
    exact d.keys_nodup
  refine Entries.ext_get? fun k => Option.ext fun v => ?_
  rw [get?_ofList, lookup_eq_some_iff_mem hkeys, List.mem_reverse, h.mem_iff,
    Entries.mem_toList_iff]

theorem ofList_toList (d : Dict α) : ofList d.toList = d := ofList_of_perm (.refl _)

end Dict

end AccessPlan
