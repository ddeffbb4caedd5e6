/-!
# Dictionaries in key order

A dictionary maps strings to values and holds its keys in ascending order, each once. The order is
part of the type: an entry carries the evidence that its key lies above the one before it, so two
dictionaries that answer every look-up alike are the same value.

* `Entries`: entries above a bound. `Dict`: entries without a bound.
* `Entries.get?`, `Entries.toList`: the two views of a dictionary.
* `Dict.insert`, `Dict.ofList`: writes, of which the last one of a key stays.
-/

namespace AccessPlan

/-- The key lies above the bound; without a bound every key does. -/
def Above : Option String → String → Prop
  | none, _ => True
  | some low, key => low < key

instance decidableAbove : (bound : Option String) → (key : String) → Decidable (Above bound key)
  | none, _ => inferInstanceAs (Decidable True)
  | some low, key => inferInstanceAs (Decidable (low < key))

/-- Entries in strictly ascending key order, every key above the bound. -/
inductive Entries (α : Type) : Option String → Type where
  | nil {bound : Option String} : Entries α bound
  | cons {bound : Option String} (key : String) (above : Above bound key) (value : α)
      (rest : Entries α (some key)) : Entries α bound

/-- A map from strings to values, kept in ascending key order. -/
abbrev Dict (α : Type) := Entries α none

namespace Entries

variable {α β : Type}

/-- The value stored at a key. -/
def get? {bound : Option String} : Entries α bound → String → Option α
  | .nil, _ => none
  | .cons key _ value rest, k => if k = key then some value else rest.get? k

/-- Whether a value is stored at the key. -/
def contains {bound : Option String} (entries : Entries α bound) (k : String) : Bool :=
  (entries.get? k).isSome

/-- The entries in ascending key order. -/
def toList {bound : Option String} : Entries α bound → List (String × α)
  | .nil => []
  | .cons key _ value rest => (key, value) :: rest.toList

/-- The keys in ascending order. -/
def keys {bound : Option String} : Entries α bound → List String
  | .nil => []
  | .cons key _ _ rest => key :: rest.keys

/-- The number of entries. -/
def size {bound : Option String} : Entries α bound → Nat
  | .nil => 0
  | .cons _ _ _ rest => rest.size + 1

/-- Whether there is no entry. -/
def isEmpty {bound : Option String} : Entries α bound → Bool
  | .nil => true
  | .cons .. => false

/-- The entries with a function applied to every value. -/
def mapValues {bound : Option String} (f : α → β) : Entries α bound → Entries β bound
  | .nil => .nil
  | .cons key above value rest => .cons key above (f value) (rest.mapValues f)

theorem lt_of_not_lt_of_ne {a b : String} (h : ¬a < b) (hne : a ≠ b) : b < a :=
  Std.lt_of_le_of_ne (Std.not_lt.1 h) (Ne.symm hne)

theorem above_of_lt {low key : String} (h : low < key) : Above (some low) key := h

/-- Writes a value at a key above the bound, in place of the one stored there. -/
def put {bound : Option String} (k : String) (v : α) (hk : Above bound k) :
    Entries α bound → Entries α bound
  | .nil => .cons k hk v .nil
  | .cons key above value rest =>
    if before : k < key then .cons k hk v (.cons key (above_of_lt before) value rest)
    else if same : k = key then .cons key above v rest
    else .cons key above value (rest.put k v (above_of_lt (lt_of_not_lt_of_ne before same)))

end Entries

namespace Dict

variable {α : Type}

/-- The dictionary without entries. -/
def empty : Dict α := .nil

/-- Writes a value at a key, in place of the one stored there. -/
def insert (d : Dict α) (k : String) (v : α) : Dict α := Entries.put k v trivial d

/-- The dictionary with one entry. -/
def single (k : String) (v : α) : Dict α := .cons k trivial v .nil

/-- Writes the pairs one after the other, so that the last one of a key stays. -/
def insertAll (d : Dict α) (pairs : List (String × α)) : Dict α :=
  pairs.foldl (fun d pair => insert d pair.1 pair.2) d

/-- The dictionary of the pairs; of several with one key the last one stays. -/
def ofList (pairs : List (String × α)) : Dict α := insertAll empty pairs

end Dict

/-! ## Equality -/

namespace Entries

variable {α : Type}

/-- Compares entries one by one. -/
def decideEq [DecidableEq α] : {bound : Option String} → (a b : Entries α bound) → Decidable (a = b)
  | _, .nil, .nil => isTrue rfl
  | _, .nil, .cons .. => isFalse (by simp)
  | _, .cons .., .nil => isFalse (by simp)
  | _, .cons key above value rest, .cons key' above' value' rest' =>
    if hkey : key = key' then by
      subst hkey
      exact match decEq value value', decideEq rest rest' with
        | isTrue hv, isTrue hr => isTrue (by rw [hv, hr])
        | isFalse hv, _ => isFalse (by simp [hv])
        | _, isFalse hr => isFalse (by simp [hr])
    else isFalse (by simp [hkey])

instance [DecidableEq α] {bound : Option String} : DecidableEq (Entries α bound) := decideEq

end Entries

end AccessPlan
