import AccessPlan.Dict.Basic

/-!
# Laws of dictionaries

* `get?_insert`: a look-up after a write answers the written value at its key and what it answered
  before at every other.
* `ext_get?`: equal look-ups make equal dictionaries.
* `get?_eq_none_of_below`: nothing is stored at or below the bound.
* `get?_ofList`: a dictionary of pairs answers the last pair of each key.
-/

namespace AccessPlan

/-! ## Look-up -/

namespace Entries

variable {α β : Type} {bound : Option String}

theorem get?_cons (key : String) (above : Above bound key) (value : α)
    (rest : Entries α (some key)) (k : String) :
    (Entries.cons key above value rest).get? k = if k = key then some value else rest.get? k := rfl

theorem above_trans {low k : String} (h : Above bound low) (hk : low < k) : Above bound k := by
  cases bound with
  | none => trivial
  | some b => exact Std.lt_trans (show b < low from h) hk

theorem ne_of_above {low k : String} (h : Above (some low) k) : k ≠ low := by
  rintro rfl
  exact Std.lt_irrefl (show k < k from h)

/-- Nothing is stored at or below the bound. -/
theorem get?_eq_none_of_below (entries : Entries α bound) {k : String} (h : ¬Above bound k) :
    entries.get? k = none := by
  induction entries with
  | nil => rfl
  | cons key above value rest ih =>
    have hne : k ≠ key := fun e => h (e ▸ above)
    rw [get?, if_neg hne]
    exact ih fun hk => h (above_trans above hk)

theorem get?_put (entries : Entries α bound) (k : String) (v : α) (hk : Above bound k)
    (q : String) : (entries.put k v hk).get? q = if q = k then some v else entries.get? q := by
  induction entries with
  | nil => rfl
  | cons key above value rest ih =>
    rw [put]
    split
    · simp only [get?]
    · split
      · rename_i same
        subst same
        rw [get?, get?]
        split <;> rfl
      · rename_i before same
        rw [get?, get?, ih]
        by_cases hq : q = key
        · subst hq
          simp [Ne.symm same]
        · simp [hq]

/-- Equal look-ups make equal entries. -/
theorem ext_get? {a b : Entries α bound} (h : ∀ k, a.get? k = b.get? k) : a = b := by
  induction a with
  | nil =>
    cases b with
    | nil => rfl
    | cons key above value rest => simpa [get?] using h key
  | cons key above value rest ih =>
    cases b with
    | nil => simpa [get?] using h key
    | cons key' above' value' rest' =>
      have hkey : key = key' := by
        -- the smaller of two first keys would be stored on one side only
        by_cases hlt : key < key'
        · have := h key
          have hne : key ≠ key' := by rintro rfl; exact Std.lt_irrefl hlt
          rw [get?, if_pos rfl, get?, if_neg hne,
            get?_eq_none_of_below rest' (fun hk => String.lt_asymm hlt hk)] at this
          cases this
        · by_cases same : key = key'
          · exact same
          · have hgt := lt_of_not_lt_of_ne hlt same
            have := h key'
            rw [get?, if_neg (Ne.symm same), get?, if_pos rfl,
              get?_eq_none_of_below rest (fun hk => String.lt_asymm hgt hk)] at this
            cases this
      subst hkey
      have hv : value = value' := by simpa [get?] using h key
      subst hv
      -- the rests agree at the first key too: neither stores it
      have hr : rest = rest' := ih fun k => by
        by_cases hk : k = key
        · subst hk
          rw [get?_eq_none_of_below rest (fun h => ne_of_above h rfl),
            get?_eq_none_of_below rest' (fun h => ne_of_above h rfl)]
        · simpa [get?, hk] using h k
      subst hr
      rfl

/-! ## Size and keys -/

theorem size_eq_length_toList (entries : Entries α bound) :
    entries.size = entries.toList.length := by
  induction entries with
  | nil => rfl
  | cons key above value rest ih => rw [size, toList, List.length_cons, ih]

theorem keys_eq_map_toList (entries : Entries α bound) :
    entries.keys = entries.toList.map Prod.fst := by
  induction entries with
  | nil => rfl
  | cons key above value rest ih => rw [keys, toList, List.map_cons, ih]

theorem mem_keys_iff (entries : Entries α bound) (k : String) :
    k ∈ entries.keys ↔ (entries.get? k).isSome := by
  induction entries with
  | nil => simp [keys, get?]
  | cons key above value rest ih =>
    rw [keys, List.mem_cons, ih, get?]
    split <;> simp_all

theorem isEmpty_iff_size (entries : Entries α bound) :
    entries.isEmpty = true ↔ entries.size = 0 := by
  cases entries with
  | nil => simp [isEmpty, size]
  | cons key above value rest => simp [isEmpty, size]

end Entries

namespace Dict

variable {α : Type}

@[simp] theorem get?_empty (k : String) : (empty : Dict α).get? k = none := rfl

theorem get?_insert (d : Dict α) (k : String) (v : α) (q : String) :
    (insert d k v).get? q = if q = k then some v else d.get? q :=
  Entries.get?_put d k v trivial q

theorem get?_insertAll (d : Dict α) (pairs : List (String × α)) (k : String) :
    (insertAll d pairs).get? k = ((pairs.reverse.lookup k).or (d.get? k)) := by
  induction pairs generalizing d with
  | nil => simp [insertAll]
  | cons pair rest ih =>
    obtain ⟨key, value⟩ := pair
    have step : insertAll d ((key, value) :: rest) = insertAll (insert d key value) rest := rfl
    rw [step, ih, get?_insert, List.reverse_cons, List.lookup_append]
    -- a later pair of the key wins, and only without one does this pair count
    cases rest.reverse.lookup k with
    | some _ => rfl
    | none =>
      rw [List.lookup_cons, List.lookup_nil]
      by_cases hk : k = key
      · simp [hk]
      · have hb : (k == key) = false := by simpa using hk
        simp [hk, hb]

/-- A dictionary of pairs answers the last pair of each key. -/
theorem get?_ofList (pairs : List (String × α)) (k : String) :
    (ofList pairs).get? k = pairs.reverse.lookup k := by
  rw [ofList, get?_insertAll, get?_empty, Option.or_none]

end Dict

end AccessPlan
