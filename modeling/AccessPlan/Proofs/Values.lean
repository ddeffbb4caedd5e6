import AccessPlan.Decode.Record
import AccessPlan.Proofs.Except
import AccessPlan.Proofs.Pairs

/-!
# Values given to decoders

A value has no faults, so that a decoder fails on it for what it says alone.

* `Document.toJson_ofJson`, `Document.skip_ofJson`: a value is read as itself and can be passed
  over.
* `Decoder.string_ok_iff`, `optional_ok_iff`, `variant_ok_iff` and so on: what each decoder takes,
  and for what. `ofValue_dictOf_ok_iff`: an object is decoded value by value.
-/

namespace AccessPlan

/-! ## Values as documents -/

namespace Document

mutual

/-- A value is read as itself. -/
theorem toJson_ofJson : (j : Json) → (ofJson j).toJson = .ok j
  | .null => rfl
  | .bool _ => rfl
  | .num _ => rfl
  | .str _ => rfl
  | .arr items => by
    rw [ofJson, toJson, toItems_ofItems items]
    rfl
  | .obj members => by
    rw [ofJson, toJson, toMembers_ofEntries members]
    simp only [bind, Except.bind, closing, pure, Except.pure, Json.ofMembers]
    rw [Dict.ofList_toList]

theorem toItems_ofItems : (items : List Json) → toItems (ofItems items) = .ok items
  | [] => rfl
  | item :: rest => by
    rw [ofItems, toItems, toJson_ofJson item, toItems_ofItems rest]
    rfl

theorem toMembers_ofEntries : {bound : Option String} → (members : Entries Json bound) →
    toMembers (ofEntries members) = .ok members.toList
  | _, .nil => rfl
  | _, .cons key _ value rest => by
    rw [ofEntries, toMembers, toJson_ofJson value, toMembers_ofEntries rest]
    rfl

end

mutual

/-- A value can be passed over. -/
theorem skip_ofJson : (j : Json) → (ofJson j).skip = .ok ()
  | .null => rfl
  | .bool _ => rfl
  | .num _ => rfl
  | .str _ => rfl
  | .arr items => by
    rw [ofJson, skip, skipItems_ofItems items]
    rfl
  | .obj members => by
    rw [ofJson, skip, skipMembers_ofEntries members]
    rfl

theorem skipItems_ofItems : (items : List Json) → skipItems (ofItems items) = .ok ()
  | [] => rfl
  | item :: rest => by
    rw [ofItems, skipItems, skip_ofJson item]
    exact skipItems_ofItems rest

theorem skipMembers_ofEntries : {bound : Option String} → (members : Entries Json bound) →
    skipMembers (ofEntries members) = .ok ()
  | _, .nil => rfl
  | _, .cons key _ value rest => by
    rw [ofEntries, skipMembers, skip_ofJson value]
    exact skipMembers_ofEntries rest

end

end Document

/-! ## What the decoders take -/

/-- The value names a variant: it is the name, or an object in which the name leads to nothing. -/
def Json.Names (j : Json) (name : String) : Prop := j = .str name ∨ j = .single name .null

namespace Decoder

variable {α : Type} {medium : Medium} {j : Json}

theorem reading_ok_iff {x : Except Fault α} {value : α} :
    reading x = .ok value ↔ x = .ok value := by
  cases x with
  | error e => exact ⟨nofun, nofun⟩
  | ok first =>
    constructor
    · exact fun h => congrArg Except.ok (Except.ok.inj h)
    · exact fun h => congrArg Except.ok (Except.ok.inj h)

theorem wrongType_ne_ok {expected : Expected} {d : Document} {value : α} :
    wrongType expected d ≠ .ok value := by
  intro h
  obtain ⟨found, -, h⟩ := Except.bind_eq_ok_iff.1 h
  cases h

theorem string_ok_iff {value : String} :
    string medium (.ofJson j) = .ok value ↔ j = .str value := by
  cases j <;> simp [string, Document.ofJson, wrongType_ne_ok]

theorem boolean_ok_iff {value : Bool} :
    boolean medium (.ofJson j) = .ok value ↔ j = .bool value := by
  cases j <;> simp [boolean, Document.ofJson, wrongType_ne_ok]

theorem unit_ok_iff : unit medium (.ofJson j) = .ok () ↔ j = .null := by
  cases j <;> simp [unit, Document.ofJson, wrongType_ne_ok]

theorem json_ok (medium : Medium) (j : Json) : json medium (.ofJson j) = .ok j := by
  rw [json, Document.toJson_ofJson]
  rfl

theorem optional_ok_iff {decoder : Decoder α} {value : Option α} :
    optional decoder medium (.ofJson j) = .ok value ↔
      j = .null ∧ value = none ∨
        j ≠ .null ∧ ∃ given, decoder medium (.ofJson j) = .ok given ∧ some given = value := by
  cases j with
  | null => simp [optional, Document.ofJson, eq_comm]
  | _ => simp [optional, Document.ofJson, Except.map_eq_ok_iff]

theorem exists_string_ok_iff :
    (∃ value, ofValue string j = .ok value) ↔ ∃ value, j = .str value :=
  exists_congr fun _ => string_ok_iff

theorem exists_optional_ok_iff {decoder : Decoder α} :
    (∃ value, ofValue (optional decoder) j = .ok value) ↔
      j = .null ∨ ∃ value, ofValue decoder j = .ok value := by
  simp only [ofValue, optional_ok_iff]
  by_cases hj : j = .null
  · simp [hj]
  · constructor
    · rintro ⟨_, ⟨h, -⟩ | ⟨-, given, hgiven, -⟩⟩
      · exact absurd h hj
      · exact .inr ⟨given, hgiven⟩
    · rintro (h | ⟨given, hgiven⟩)
      · exact absurd h hj
      · exact ⟨some given, .inr ⟨hj, given, hgiven, rfl⟩⟩

theorem exists_boolean_ok_iff :
    (∃ value, ofValue boolean j = .ok value) ↔ ∃ value, j = .bool value :=
  exists_congr fun _ => boolean_ok_iff

/-! ### Objects with free names -/

section

variable {decoder : Decoder α} {bound : Option String} {members : Entries Json bound}

/-- Decodes a member of an object with free names. -/
def ofNamed (decoder : Decoder α) (member : Key × Document) : Except DecodeError (String × α) := do
  let name ← reading (Document.readName member.1)
  let value ← decoder .value member.2
  return (name, value)

theorem ofNamed_ok_iff {key : String} {pair : String × α} :
    ofNamed decoder (.name key, .ofJson j) = .ok pair ↔
      ∃ value, ofValue decoder j = .ok value ∧ (key, value) = pair := by
  simp only [ofNamed, Document.readName, Except.bind_eq_ok_iff, reading_ok_iff]
  constructor
  · rintro ⟨_, hname, value, hvalue, h⟩
    cases hname
    exact ⟨value, hvalue, Except.ok.inj h⟩
  · rintro ⟨value, hvalue, rfl⟩
    exact ⟨key, rfl, value, hvalue, rfl⟩

/-- The values of an object are decoded one by one, and stand under the same names. -/
theorem exists_entries_of_mapM {pairs : List (String × α)}
    (h : (Document.ofEntries members).mapM (ofNamed decoder) = .ok pairs) :
    ∃ entries : Entries α bound, pairs = entries.toList ∧
      ∀ k, (members.get? k).map (ofValue decoder) = (entries.get? k).map .ok := by
  induction members generalizing pairs with
  | nil =>
    obtain rfl : [] = pairs := Except.ok.inj h
    exact ⟨.nil, rfl, fun _ => rfl⟩
  | cons key above j rest ih =>
    rw [Document.ofEntries, List.mapM_cons] at h
    obtain ⟨pair, hpair, h⟩ := Except.bind_eq_ok_iff.1 h
    obtain ⟨others, hothers, h⟩ := Except.bind_eq_ok_iff.1 h
    obtain rfl : pair :: others = pairs := Except.ok.inj h
    obtain ⟨value, hvalue, rfl⟩ := ofNamed_ok_iff.1 hpair
    obtain ⟨entries, rfl, hentries⟩ := ih hothers
    refine ⟨.cons key above value entries, rfl, fun k => ?_⟩
    rw [Entries.get?_cons, Entries.get?_cons]
    split
    · rw [Option.map_some, Option.map_some, hvalue]
    · exact hentries k

/-- If each of them can be decoded, all can. -/
theorem exists_mapM_of_forall
    (h : ∀ k j, members.get? k = some j → ∃ value, ofValue decoder j = .ok value) :
    ∃ pairs, (Document.ofEntries members).mapM (ofNamed decoder) = .ok pairs := by
  induction members with
  | nil => exact ⟨[], rfl⟩
  | cons key above j rest ih =>
    obtain ⟨⟨value, hvalue⟩, hrest⟩ := Entries.forall_get?_cons_iff.1 h
    obtain ⟨others, hothers⟩ := ih hrest
    refine ⟨(key, value) :: others, ?_⟩
    rw [Document.ofEntries, List.mapM_cons, ofNamed_ok_iff.2 ⟨value, hvalue, rfl⟩, hothers]
    rfl

theorem forall_decodes_of_map_eq {entries : Entries α bound}
    (h : ∀ k, (members.get? k).map (ofValue decoder) = (entries.get? k).map .ok) :
    ∀ k j, members.get? k = some j → ∃ value, ofValue decoder j = .ok value := by
  intro k j hj
  have hk := h k
  rw [hj] at hk
  obtain ⟨value, -, hvalue⟩ := Option.map_eq_some_iff.1 hk.symm
  exact ⟨value, hvalue.symm⟩

theorem ofValue_dictOf_obj_ok_iff {members : Dict Json} {d : Dict α} :
    ofValue (dictOf decoder) (.obj members) = .ok d ↔
      ∃ pairs, (Document.ofEntries members).mapM (ofNamed decoder) = .ok pairs ∧
        Dict.ofList pairs = d := by
  rw [← Except.map_eq_ok_iff]
  rfl

/-- An object with free names is decoded to the dictionary that holds under each name what the value
there is decoded to. -/
theorem ofValue_dictOf_ok_iff {d : Dict α} :
    ofValue (dictOf decoder) j = .ok d ↔
      ∃ members : Dict Json, j = .obj members ∧
        ∀ k, (members.get? k).map (ofValue decoder) = (d.get? k).map .ok := by
  constructor
  · intro h
    cases j with
    | obj members =>
      obtain ⟨pairs, hpairs, rfl⟩ := ofValue_dictOf_obj_ok_iff.1 h
      obtain ⟨entries, rfl, hentries⟩ := exists_entries_of_mapM hpairs
      exact ⟨members, rfl, by rwa [Dict.ofList_toList]⟩
    | _ => exact absurd h wrongType_ne_ok
  · rintro ⟨members, rfl, h⟩
    obtain ⟨pairs, hpairs⟩ := exists_mapM_of_forall (forall_decodes_of_map_eq h)
    obtain ⟨entries, rfl, hentries⟩ := exists_entries_of_mapM hpairs
    -- what is decoded answers every look-up as the dictionary does
    have hsame : entries = d := Entries.ext_get? fun k =>
      Option.map_injective (fun _ _ => Except.ok.inj) ((hentries k).symm.trans (h k))
    exact ofValue_dictOf_obj_ok_iff.2
      ⟨entries.toList, hpairs, by rw [Dict.ofList_toList, hsame]⟩

/-- It can be decoded if all its values can. -/
theorem exists_dictOf_ok_iff :
    (∃ d, ofValue (dictOf decoder) j = .ok d) ↔
      ∃ members : Dict Json, j = .obj members ∧
        ∀ k j, members.get? k = some j → ∃ value, ofValue decoder j = .ok value := by
  constructor
  · rintro ⟨d, h⟩
    obtain ⟨members, hj, hmembers⟩ := ofValue_dictOf_ok_iff.1 h
    exact ⟨members, hj, forall_decodes_of_map_eq hmembers⟩
  · rintro ⟨members, rfl, h⟩
    obtain ⟨pairs, hpairs⟩ := exists_mapM_of_forall h
    obtain ⟨entries, rfl, hentries⟩ := exists_entries_of_mapM hpairs
    exact ⟨entries, ofValue_dictOf_ok_iff.2 ⟨members, rfl, hentries⟩⟩

end

/-! ### Variants -/

theorem variantNamed_ok_iff {variants : List (String × α)} {name : String} {value : α} :
    variantNamed variants name = .ok value ↔ variants.lookup name = some value := by
  rw [variantNamed]
  cases variants.lookup name with
  | none => simp
  | some found => simp

theorem variantMember_ok_iff {variants : List (String × α)} {name : String} {value : α} :
    variantMember variants medium (.name name) (.ofJson j) = .ok value ↔
      variants.lookup name = some value ∧ j = .null := by
  simp only [variantMember, Document.readName, Except.bind_eq_ok_iff, reading_ok_iff,
    variantNamed_ok_iff]
  constructor
  · rintro ⟨found, hname, first, hfirst, _, hunit, h⟩
    obtain rfl : name = found := Except.ok.inj hname
    obtain rfl : first = value := Except.ok.inj h
    exact ⟨hfirst, unit_ok_iff.1 hunit⟩
  · rintro ⟨hfirst, hj⟩
    exact ⟨name, rfl, value, hfirst, (), unit_ok_iff.2 hj, rfl⟩

theorem variant_obj_ok_iff {variants : List (String × α)} {members : Dict Json} {value : α} :
    variant variants .value (.ofJson (.obj members)) = .ok value ↔
      ∃ name, variants.lookup name = some value ∧ members = .single name .null := by
  cases members with
  | nil => simp [Document.ofJson, Document.ofEntries, variant, Dict.single]
  | cons key above j rest =>
    cases rest with
    | nil =>
      simp only [Document.ofJson, Document.ofEntries, variant, variantMember_ok_iff, Dict.single]
      constructor
      · rintro ⟨h, rfl⟩
        exact ⟨key, h, rfl⟩
      · rintro ⟨name, h, hmembers⟩
        cases hmembers
        exact ⟨h, rfl⟩
    | cons key' above' j' rest' =>
      -- an object of two members is not one of a single member
      have hsize : ∀ name, Entries.cons key above j (.cons key' above' j' rest') ≠
          Dict.single name .null := by
        intro name h
        have hsize := congrArg Entries.size h
        simp only [Entries.size, Dict.single] at hsize
        omega
      simp [Document.ofJson, Document.ofEntries, variant, hsize]

/-- A variant is given by its name, or by an object in which its name leads to nothing. -/
theorem variant_ok_iff {variants : List (String × α)} {value : α} :
    variant variants .value (.ofJson j) = .ok value ↔
      ∃ name, variants.lookup name = some value ∧ j.Names name := by
  cases j with
  | str name =>
    simp only [Document.ofJson, variant, variantNamed_ok_iff]
    constructor
    · exact fun h => ⟨name, h, .inl rfl⟩
    · rintro ⟨_, h, hj | hj⟩
      · cases hj
        exact h
      · cases hj
  | obj members => simp [variant_obj_ok_iff, Json.Names, Json.single]
  | _ => simp [Document.ofJson, variant, wrongType_ne_ok, Json.Names, Json.single]

/-- A variant out of a list with names is given by its name. -/
theorem variant_named_ok_iff {all : List α} {name : α → String}
    (hall : ∀ value, (all.map fun value => (name value, value)).lookup (name value) = some value)
    {value : α} :
    variant (all.map fun value => (name value, value)) .value (.ofJson j) = .ok value ↔
      j.Names (name value) := by
  rw [variant_ok_iff]
  constructor
  · rintro ⟨given, hlookup, hj⟩
    obtain ⟨before, after, hsplit, -⟩ := List.lookup_eq_some_iff.1 hlookup
    have hmem : (given, value) ∈ all.map fun value => (name value, value) := by simp [hsplit]
    obtain ⟨_, -, hpair⟩ := List.mem_map.1 hmem
    cases hpair
    exact hj
  · intro hj
    exact ⟨name value, hall value, hj⟩

end Decoder

end AccessPlan
