import AccessPlan.Proofs.Records

/-!
# Records field by field

An object sets the fields of a record in key order. If setting one field does not disturb another,
the record is the same as if its fields were set in declaration order, each from the member of its
name.

* `Field.Commutes`: two fields that may be set in either order. `Schema.fill`: the fields set in
  declaration order.
* `Schema.ofValue_obj_ok_iff_fill`: an object is decoded as this says. `fill_required`,
  `fill_defaulted`: one field after the other.
* `Schema.holds_of_decoder`: what is true of the default and preserved by every field is true of
  every decoded record.
-/

namespace AccessPlan

variable {ρ α : Type}

namespace Field

/-- The fields may be set in either order. -/
def Commutes (first second : Field ρ) : Prop :=
  ∀ d d' set set', first.decode .value d = .ok set → second.decode .value d' = .ok set' →
    ∀ record, set (set' record) = set' (set record)

/-- Setting the field preserves a property of records. -/
def Preserves (field : Field ρ) (p : ρ → Prop) : Prop :=
  ∀ medium d set, field.decode medium d = .ok set → ∀ record, p record → p (set record)

/-- Fields made of setters may be set in either order if their setters may. -/
theorem commutes_of_setters {β : Type} {name name' : String} {mandatory mandatory' : Bool}
    {decoder : Decoder α} {decoder' : Decoder β} {set : ρ → α → ρ} {set' : ρ → β → ρ}
    (h : ∀ record value value',
      set (set' record value') value = set' (set record value) value') :
    Commutes
      ⟨name, mandatory, fun medium d => (fun value record => set record value) <$> decoder medium d⟩
      ⟨name', mandatory',
        fun medium d => (fun value record => set' record value) <$> decoder' medium d⟩ := by
  intro d d' f f' hf hf' record
  obtain ⟨value, -, rfl⟩ := Except.map_eq_ok_iff.1 hf
  obtain ⟨value', -, rfl⟩ := Except.map_eq_ok_iff.1 hf'
  exact h record value value'

theorem preserves_defaulted {name : String} {decoder : Decoder α} {set : ρ → α → ρ} {p : ρ → Prop}
    (h : ∀ medium d value, decoder medium d = .ok value →
      ∀ record, p record → p (set record value)) :
    (defaulted name decoder set).Preserves p := by
  intro medium d f hf
  obtain ⟨value, hvalue, rfl⟩ := decode_defaulted_ok_iff.1 hf
  exact h medium d value hvalue

end Field

namespace Schema

/-- Sets fields in declaration order, each from what is given under its name. -/
def fill : List (Field ρ) → (String → Option Json) → ρ → Except DecodeError ρ
  | [], _, record => .ok record
  | field :: rest, given, record =>
    match given field.name with
    | none => fill rest given record
    | some j => do
      let set ← field.decode .value (.ofJson j)
      fill rest given (set record)

variable {field : Field ρ} {fields rest : List (Field ρ)} {given given' : String → Option Json}
  {record record' : ρ}

theorem fill_cons_of_none (h : given field.name = none) :
    fill (field :: rest) given record = fill rest given record := by
  rw [fill, h]

theorem fill_cons_of_some {j : Json} (h : given field.name = some j) :
    fill (field :: rest) given record =
      field.decode .value (.ofJson j) >>= fun set => fill rest given (set record) := by
  rw [fill, h]

theorem fill_congr (h : ∀ field ∈ fields, given field.name = given' field.name) :
    fill fields given record = fill fields given' record := by
  induction fields generalizing record with
  | nil => rfl
  | cons field rest ih =>
    obtain ⟨hfield, hrest⟩ := List.forall_mem_cons.1 h
    rw [fill, fill, hfield]
    cases given' field.name with
    | none => exact ih hrest
    | some j => exact bind_congr fun set => ih hrest

theorem fill_of_none (h : ∀ field ∈ fields, given field.name = none) :
    fill fields given record = .ok record := by
  induction fields with
  | nil => rfl
  | cons field rest ih =>
    obtain ⟨hfield, hrest⟩ := List.forall_mem_cons.1 h
    rw [fill_cons_of_none hfield, ih hrest]

/-- Whatever is given for a field can be decoded if the fields can be set. -/
theorem takes_of_fill (h : fill fields given record = .ok record') {j : Json}
    (hfield : field ∈ fields) (hj : given field.name = some j) : field.Takes (some j) := by
  induction fields generalizing record with
  | nil => cases hfield
  | cons first rest ih =>
    rcases List.mem_cons.1 hfield with rfl | hfield
    · rw [fill_cons_of_some hj] at h
      obtain ⟨set, hset, -⟩ := Except.bind_eq_ok_iff.1 h
      exact ⟨set, hset⟩
    · rw [fill] at h
      split at h
      · exact ih h hfield
      · obtain ⟨set, -, h⟩ := Except.bind_eq_ok_iff.1 h
        exact ih h hfield

/-- A field may be set before the others. -/
theorem fill_eq_of_first (hnames : (fields.map Field.name).Nodup)
    (hcommute : fields.Pairwise Field.Commutes) (hfield : field ∈ fields) {j : Json} {set : ρ → ρ}
    (hset : field.decode .value (.ofJson j) = .ok set) (hj : given field.name = some j)
    (hnone : given' field.name = none) (hother : ∀ name ≠ field.name, given name = given' name) :
    fill fields given record = fill fields given' (set record) := by
  induction fields generalizing record with
  | nil => cases hfield
  | cons first rest ih =>
    rw [List.map_cons, List.nodup_cons] at hnames
    obtain ⟨hfresh, hnames⟩ := hnames
    obtain ⟨hfirst, hcommute⟩ := List.pairwise_cons.1 hcommute
    rcases List.mem_cons.1 hfield with rfl | hfield
    · rw [fill_cons_of_some hj, hset, fill_cons_of_none hnone]
      refine fill_congr fun other hmem => hother _ fun heq => hfresh ?_
      exact heq ▸ List.mem_map_of_mem hmem
    · have hne : first.name ≠ field.name := fun heq => hfresh (heq ▸ List.mem_map_of_mem hfield)
      have hgiven := hother _ hne
      cases hj' : given' first.name with
      | none =>
        rw [fill_cons_of_none (hgiven.trans hj'), fill_cons_of_none hj']
        exact ih hnames hcommute hfield
      | some j' =>
        rw [fill_cons_of_some (hgiven.trans hj'), fill_cons_of_some hj']
        cases hset' : first.decode .value (.ofJson j') with
        | error e => rfl
        | ok set' =>
          -- the field that is set first trades places with the one that is declared first
          calc fill rest given (set' record)
              = fill rest given' (set (set' record)) := ih hnames hcommute hfield
            _ = fill rest given' (set' (set record)) := by
                rw [hfirst field hfield _ _ set' set hset' hset record]

variable {schema : Schema ρ} {members : Dict Json}

theorem fill_of_setMembers (hnames : schema.fieldNames.Nodup)
    (hcommute : schema.fields.Pairwise Field.Commutes) {bound : Option String}
    (members : Entries Json bound) {names names' : List String}
    (h : schema.setMembers .value (Document.ofEntries members) names record =
      .ok (names', record')) :
    fill schema.fields members.get? record = .ok record' := by
  induction members generalizing names record with
  | nil =>
    rw [Document.ofEntries, setMembers] at h
    cases h
    exact fill_of_none fun _ _ => rfl
  | cons key above j rest ih =>
    have hother : ∀ name ≠ key, (Entries.cons key above j rest).get? name = rest.get? name :=
      fun name hname => by rw [Entries.get?_cons, if_neg hname]
    rw [Document.ofEntries] at h
    rcases setMembers_cons_ok_iff.1 h with ⟨hf, -, h⟩ | ⟨field, set, hf, -, hset, h⟩
    · -- no field has this name, so that none misses the member
      rw [← ih h]
      refine fill_congr fun field hfield => hother _ fun heq => ?_
      have hfound := field?_name hnames hfield
      rw [heq, hf] at hfound
      cases hfound
    · obtain ⟨hfield, rfl⟩ := mem_of_field? hf
      rw [← ih h]
      exact fill_eq_of_first hnames hcommute hfield hset (by rw [Entries.get?_cons, if_pos rfl])
        (Entries.get?_bound rest) hother

/-- If the names of the fields differ and their order does not matter, an object is decoded to the
record with its fields set in declaration order. No mandatory field may be missing and, if the
record is closed, no other member may be given. -/
theorem ofValue_obj_ok_iff_fill (hnames : schema.fieldNames.Nodup)
    (hcommute : schema.fields.Pairwise Field.Commutes) :
    Decoder.ofValue schema.decoder (.obj members) = .ok record ↔
      fill schema.fields members.get? schema.default = .ok record ∧
        (∀ field ∈ schema.fields, field.mandatory = true → (members.get? field.name).isSome) ∧
        (schema.closed = true → ∀ name, (members.get? name).isSome → name ∈ schema.fieldNames) := by
  have hfilled : ∀ {record : ρ}, Decoder.ofValue schema.decoder (.obj members) = .ok record →
      fill schema.fields members.get? schema.default = .ok record := by
    intro record h
    obtain ⟨names, hset, -⟩ := ofValue_obj_ok_iff.1 h
    exact fill_of_setMembers hnames hcommute members hset
  constructor
  · intro h
    obtain ⟨htakes, hclosed⟩ := (decodes_obj_iff hnames members).1 ⟨record, h⟩
    refine ⟨hfilled h, fun field hfield hmandatory => ?_, hclosed⟩
    have hfield := htakes field hfield
    cases hj : members.get? field.name with
    | some j => rfl
    | none => simp [hj, Field.Takes, hmandatory] at hfield
  · rintro ⟨hfill, hmandatory, hclosed⟩
    -- some record is decoded, and by `hfilled` it is the one that the fields fill
    obtain ⟨record', h⟩ :
        ∃ record', Decoder.ofValue schema.decoder (.obj members) = .ok record' := by
      refine (decodes_obj_iff hnames members).2 ⟨fun field hfield => ?_, hclosed⟩
      cases hj : members.get? field.name with
      | some j => exact takes_of_fill hfill hfield hj
      | none =>
        refine Bool.eq_false_iff.2 fun h => ?_
        simpa [hj] using hmandatory field hfield h
    rw [h]
    exact (hfilled h).symm.trans hfill

/-! ## One field after the other -/

section

variable {name : String} {decoder : Decoder α} {set : ρ → α → ρ} {value : α}

theorem fill_required (next : ρ) {j : Json} (hj : given name = some j)
    (hvalue : Decoder.ofValue decoder j = .ok value) (hnext : set record value = next) :
    fill (.required name decoder set :: rest) given record = fill rest given next := by
  have hset : (Field.required name decoder set).decode .value (.ofJson j) =
      .ok fun record => set record value := by
    rw [Decoder.ofValue] at hvalue
    simp only [Field.required, hvalue]
    rfl
  rw [@fill_cons_of_some _ (.required name decoder set) _ _ _ _ hj, hset, ← hnext]
  rfl

/-- A field that may be absent is set to what its member stands for, provided that its default is
what the record has already. -/
theorem fill_defaulted (next : ρ) {default : α}
    (hvalue : decoder.ofMember default (given name) = .ok value)
    (hdefault : set record default = record) (hnext : set record value = next) :
    fill (.defaulted name decoder set :: rest) given record = fill rest given next := by
  cases hj : given name with
  | none =>
    rw [hj] at hvalue
    obtain rfl : default = value := Except.ok.inj hvalue
    rw [← hnext, hdefault]
    exact fill_cons_of_none hj
  | some j =>
    rw [hj] at hvalue
    exact fill_required next hj hvalue hnext

end

/-! ## What is true of every decoded record -/

section

variable {p : ρ → Prop}

theorem holds_of_setMembers (heach : ∀ field ∈ schema.fields, field.Preserves p) {medium : Medium}
    {members : List (Key × Document)} {names names' : List String}
    (h : schema.setMembers medium members names record = .ok (names', record')) (hp : p record) :
    p record' := by
  induction members generalizing names record with
  | nil =>
    cases h
    exact hp
  | cons member rest ih =>
    obtain ⟨key, d⟩ := member
    rw [setMembers] at h
    obtain ⟨name, -, h⟩ := Except.bind_eq_ok_iff.1 h
    split at h
    · -- a member without a field is passed over, or refused
      split at h
      · exact absurd h Except.throw_bind_ne_ok
      · obtain ⟨_, -, h⟩ := Except.bind_eq_ok_iff.1 h
        exact ih h hp
    · rename_i field hfield
      split at h
      · exact absurd h Except.throw_bind_ne_ok
      · obtain ⟨set, hset, h⟩ := Except.bind_eq_ok_iff.1 h
        exact ih h (heach field (mem_of_field? hfield).1 medium d set hset record hp)

theorem holds_of_setItems {medium : Medium} {close : Option Fault} {total position : Nat}
    {items : List Document} (heach : ∀ field ∈ fields, field.Preserves p)
    (h : schema.setItems medium close total fields items position record = .ok record')
    (hp : p record) : p record' := by
  -- fields and items are gone through together, and either may come to an end first
  induction fields generalizing items position record with
  | nil =>
    cases items with
    | nil =>
      rw [setItems] at h
      obtain ⟨_, -, h⟩ := Except.bind_eq_ok_iff.1 h
      cases h
      exact hp
    | cons d items => cases medium <;> cases h
  | cons field fields ih =>
    obtain ⟨hfield, hfields⟩ := List.forall_mem_cons.1 heach
    cases items with
    | nil =>
      rw [setItems] at h
      obtain ⟨_, -, h⟩ := Except.bind_eq_ok_iff.1 h
      split at h
      · exact absurd h Except.throw_bind_ne_ok
      · exact ih hfields h hp
    | cons d items =>
      rw [setItems] at h
      obtain ⟨set, hset, h⟩ := Except.bind_eq_ok_iff.1 h
      exact ih hfields h (hfield medium d set hset record hp)

/-- What is true of the default and preserved by every field is true of every decoded record, be it
given as an object or as an array. -/
theorem holds_of_decoder (hdefault : p schema.default)
    (heach : ∀ field ∈ schema.fields, field.Preserves p) {medium : Medium} {d : Document}
    (h : schema.decoder medium d = .ok record) : p record := by
  unfold decoder at h
  split at h
  · rw [ofMembers] at h
    obtain ⟨⟨names, record'⟩, hmembers, h⟩ := Except.bind_eq_ok_iff.1 h
    obtain ⟨_, -, h⟩ := Except.bind_eq_ok_iff.1 h
    split at h
    · cases h
    · cases h
      exact holds_of_setMembers heach hmembers hdefault
  · exact holds_of_setItems heach h hdefault
  · exact absurd h Decoder.wrongType_ne_ok

end

end Schema

end AccessPlan
