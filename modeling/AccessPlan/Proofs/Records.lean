import AccessPlan.Proofs.Values

/-!
# Records given as objects

An object is taken for a record member by member, in key order. Which fields it sets does not depend
on the order, since no key occurs twice.

* `Decoder.ofMember`: what a member stands for that may be absent.
* `Field.Takes`: what may be given for a field. `Schema.decodes_obj_iff`: an object is a record if
  every field takes what the object has under its name, and, if the record is closed, the object has
  no other members.
* `Schema.Carries`: a part of the record that the field of one name sets and no other touches.
  `Carries.ofMember_eq`: in the decoded record it is what the member of that name stands for.
-/

namespace AccessPlan

/-- What a member stands for: the default if it is absent. -/
def Decoder.ofMember {α : Type} (decoder : Decoder α) (default : α) :
    Option Json → Except DecodeError α
  | none => .ok default
  | some j => decoder.ofValue j

namespace Field

variable {ρ α : Type} {name : String} {decoder : Decoder α} {set : ρ → α → ρ}

/-- Whether a record can be decoded if this is given for the field, or nothing. -/
def Takes (field : Field ρ) : Option Json → Prop
  | none => field.mandatory = false
  | some j => ∃ f, field.decode .value (.ofJson j) = .ok f

theorem decode_defaulted_ok_iff {medium : Medium} {d : Document} {f : ρ → ρ} :
    (defaulted name decoder set).decode medium d = .ok f ↔
      ∃ value, decoder medium d = .ok value ∧ (fun record => set record value) = f :=
  Except.map_eq_ok_iff

theorem takes_defaulted_iff {given : Option Json} :
    (defaulted name decoder set).Takes given ↔
      ∀ j, given = some j → ∃ value, Decoder.ofValue decoder j = .ok value := by
  cases given with
  | none => simp [Takes, defaulted]
  | some j =>
    simp only [Takes, decode_defaulted_ok_iff, Decoder.ofValue, Option.some.injEq, forall_eq']
    constructor
    · rintro ⟨_, value, h, -⟩
      exact ⟨value, h⟩
    · rintro ⟨value, h⟩
      exact ⟨_, value, h, rfl⟩

/-- The field sets the part of the record that is read to what is decoded. -/
def Sets (field : Field ρ) (decoder : Decoder α) (get : ρ → α) : Prop :=
  ∀ d f, field.decode .value d = .ok f →
    ∃ value, decoder .value d = .ok value ∧ ∀ record, get (f record) = value

/-- The field does not touch the part of the record that is read. -/
def Keeps (field : Field ρ) (get : ρ → α) : Prop :=
  ∀ d f, field.decode .value d = .ok f → ∀ record, get (f record) = get record

theorem sets_defaulted {get : ρ → α} (h : ∀ record value, get (set record value) = value) :
    (defaulted name decoder set).Sets decoder get := by
  intro d f hf
  obtain ⟨value, hvalue, rfl⟩ := decode_defaulted_ok_iff.1 hf
  exact ⟨value, hvalue, fun record => h record value⟩

/-- A field made of a setter keeps what the setter keeps. -/
theorem keeps_of_setter {β : Type} {mandatory : Bool} {get : ρ → β}
    (h : ∀ record value, get (set record value) = get record) :
    Keeps
      ⟨name, mandatory, fun medium d => (fun value record => set record value) <$> decoder medium d⟩
      get := by
  intro d f hf
  obtain ⟨value, -, rfl⟩ := Except.map_eq_ok_iff.1 hf
  exact fun record => h record value

end Field

namespace Schema

variable {ρ α : Type} {schema : Schema ρ} {medium : Medium}

theorem mem_of_field? {name : String} {field : Field ρ} (h : schema.field? name = some field) :
    field ∈ schema.fields ∧ field.name = name :=
  ⟨List.mem_of_find?_eq_some h, by simpa using List.find?_some h⟩

/-- Fields of different names are found by their names. -/
theorem field?_name (hnames : schema.fieldNames.Nodup) {field : Field ρ}
    (h : field ∈ schema.fields) : schema.field? field.name = some field := by
  unfold fieldNames at hnames
  unfold field?
  generalize schema.fields = fields at hnames h
  induction fields with
  | nil => cases h
  | cons first rest ih =>
    rw [List.map_cons, List.nodup_cons] at hnames
    rcases List.mem_cons.1 h with rfl | h
    · simp
    · have hne : first.name ≠ field.name := fun e =>
        hnames.1 (e ▸ List.mem_map_of_mem h)
      rw [List.find?_cons_of_neg (by simpa using hne)]
      exact ih hnames.2 h

/-! ## One member -/

theorem setMembers_cons_ok_iff {key : String} {j : Json} {rest : List (Key × Document)}
    {given : List String} {record : ρ} {out : List String × ρ} :
    schema.setMembers medium ((.name key, .ofJson j) :: rest) given record = .ok out ↔
      (schema.field? key = none ∧ schema.closed = false ∧
        schema.setMembers medium rest given record = .ok out) ∨
      ∃ field set, schema.field? key = some field ∧ key ∉ given ∧
        field.decode medium (.ofJson j) = .ok set ∧
        schema.setMembers medium rest (key :: given) (set record) = .ok out := by
  rw [setMembers]
  simp only [Document.readName, Except.bind_eq_ok_iff, Decoder.reading_ok_iff, Except.ok.injEq,
    exists_eq_left']
  cases hf : schema.field? key with
  | none =>
    cases hc : schema.closed with
    | true => simp [Except.bind_eq_ok_iff]
    | false => simp [Except.bind_eq_ok_iff, Decoder.reading_ok_iff, Document.skip_ofJson]
  | some field =>
    by_cases hg : key ∈ given
    · simp [hg, Except.bind_eq_ok_iff]
    · simp [hg, Except.bind_eq_ok_iff]

/-! ## All members -/

/-- Whether a record can take a member of a name: its field decodes, or it may be ignored. -/
def Accepts (schema : Schema ρ) (medium : Medium) (name : String) (j : Json) : Prop :=
  match schema.field? name with
  | none => schema.closed = false
  | some field => ∃ set, field.decode medium (.ofJson j) = .ok set

/-- A record can take what it is given if each field can, and other members are not refused. -/
theorem forall_accepts_iff (hnames : schema.fieldNames.Nodup) (members : Dict Json) :
    (∀ name j, members.get? name = some j → schema.Accepts .value name j) ↔
      (∀ field ∈ schema.fields, ∀ j, members.get? field.name = some j → field.Takes (some j)) ∧
        (schema.closed = true →
          ∀ name, (members.get? name).isSome → name ∈ schema.fieldNames) := by
  constructor
  · intro haccepts
    refine ⟨fun field hfield j hj => ?_, fun hclosed name hname => ?_⟩
    · have hj := haccepts _ j hj
      rwa [Accepts, field?_name hnames hfield] at hj
    · obtain ⟨j, hj⟩ := Option.isSome_iff_exists.1 hname
      have hj := haccepts name j hj
      unfold Accepts at hj
      split at hj
      · simp [hclosed] at hj
      · rename_i field hf
        obtain ⟨hfield, rfl⟩ := mem_of_field? hf
        exact List.mem_map_of_mem hfield
  · rintro ⟨htakes, hclosed⟩ name j hj
    unfold Accepts
    split
    · rename_i hf
      refine Bool.eq_false_iff.2 fun h => ?_
      obtain ⟨field, hfield, rfl⟩ := List.mem_map.1 (hclosed h name (by simp [hj]))
      simp [field?_name hnames hfield] at hf
    · rename_i field hf
      obtain ⟨hfield, rfl⟩ := mem_of_field? hf
      exact htakes field hfield j hj

/-- All members are taken if each is. The names given so far lie below the bound of the members
that follow, so that no member is a duplicate. -/
theorem exists_setMembers_ok_iff {bound : Option String} (members : Entries Json bound)
    {given : List String} (hgiven : ∀ name ∈ given, ¬Above bound name) (record : ρ) :
    (∃ out, schema.setMembers medium (Document.ofEntries members) given record = .ok out) ↔
      ∀ name j, members.get? name = some j → schema.Accepts medium name j := by
  induction members generalizing given record with
  | nil => simp [Document.ofEntries, setMembers, Entries.get?]
  | cons key above j rest ih =>
    -- the keys rise, so `key` is neither given already nor given again
    have hfresh : key ∉ given := fun h => hgiven key h above
    have hbelow : ∀ name ∈ given, ¬Above (some key) name := fun name h hn =>
      hgiven name h (Entries.above_trans above hn)
    have hkey : ∀ name ∈ key :: given, ¬Above (some key) name := by
      intro name h
      rcases List.mem_cons.1 h with rfl | h
      · exact fun hn => Entries.ne_of_above hn rfl
      · exact hbelow name h
    rw [Entries.forall_get?_cons_iff, Document.ofEntries]
    simp only [setMembers_cons_ok_iff]
    cases hf : schema.field? key with
    | none =>
      simp only [Accepts, hf, true_and, reduceCtorEq, false_and, exists_false, or_false]
      rw [exists_and_left, ih hbelow]
      exact Iff.rfl
    | some field =>
      simp only [Accepts, hf]
      constructor
      · rintro ⟨out, ⟨h, -⟩ | ⟨found, set, h, -, hset, hout⟩⟩
        · cases h
        · cases h
          exact ⟨⟨set, hset⟩, (ih hkey _).1 ⟨out, hout⟩⟩
      · rintro ⟨⟨set, hset⟩, hrest⟩
        obtain ⟨out, hout⟩ := (ih hkey (set record)).2 hrest
        exact ⟨out, .inr ⟨field, set, rfl, hfresh, hset, hout⟩⟩

/-- The fields given in the end are those given before and those of the members. -/
theorem mem_given_iff {bound : Option String} (members : Entries Json bound)
    {given given' : List String} {record record' : ρ}
    (h : schema.setMembers medium (Document.ofEntries members) given record = .ok (given', record'))
    (name : String) :
    name ∈ given' ↔
      name ∈ given ∨ (members.get? name).isSome ∧ (schema.field? name).isSome := by
  induction members generalizing given record with
  | nil =>
    rw [Document.ofEntries, setMembers] at h
    cases h
    simp [Entries.get?]
  | cons key above j rest ih =>
    rw [Document.ofEntries] at h
    rw [Entries.get?_cons]
    rcases setMembers_cons_ok_iff.1 h with ⟨hf, -, h⟩ | ⟨field, set, hf, -, -, h⟩
    · rw [ih h]
      by_cases hn : name = key
      · subst hn
        simp [hf]
      · simp [hn]
    · rw [ih h, List.mem_cons]
      by_cases hn : name = key
      · subst hn
        simp [hf]
      · simp [hn]

theorem ofValue_obj_ok_iff {members : Dict Json} {record : ρ} :
    Decoder.ofValue schema.decoder (.obj members) = .ok record ↔
      ∃ given, schema.setMembers .value (Document.ofEntries members) [] schema.default =
          .ok (given, record) ∧
        ∀ field ∈ schema.fields, field.mandatory = true → field.name ∈ given := by
  rw [Decoder.ofValue, Document.ofJson, decoder, ofMembers, Except.bind_eq_ok_iff]
  constructor
  · rintro ⟨⟨given, record'⟩, hset, h⟩
    obtain ⟨-, -, h⟩ := Except.bind_eq_ok_iff.1 h
    split at h
    · cases h
    · rename_i hmissing
      cases h
      exact ⟨given, hset, by simpa using List.find?_eq_none.1 hmissing⟩
  · rintro ⟨given, hset, hgiven⟩
    refine ⟨(given, record), hset, Except.bind_eq_ok_iff.2 ⟨(), rfl, ?_⟩⟩
    have hmissing : schema.fields.find? (fun field => field.mandatory && field.name ∉ given) =
        none := List.find?_eq_none.2 (by simpa using hgiven)
    simp only [hmissing]
    rfl

/-- If the names of the fields differ, an object is a record if every field takes what is given for
it, and nothing else is given where that is refused. -/
theorem decodes_obj_iff (hnames : schema.fieldNames.Nodup) (members : Dict Json) :
    (∃ record, Decoder.ofValue schema.decoder (.obj members) = .ok record) ↔
      (∀ field ∈ schema.fields, field.Takes (members.get? field.name)) ∧
        (schema.closed = true →
          ∀ name, (members.get? name).isSome → name ∈ schema.fieldNames) := by
  constructor
  · rintro ⟨record, h⟩
    obtain ⟨given, hset, hgiven⟩ := ofValue_obj_ok_iff.1 h
    have haccepts := (exists_setMembers_ok_iff members (by simp) _).1 ⟨_, hset⟩
    obtain ⟨hdecode, hclosed⟩ := (forall_accepts_iff hnames members).1 haccepts
    refine ⟨fun field hfield => ?_, hclosed⟩
    cases hj : members.get? field.name with
    | some j => exact hdecode field hfield j hj
    | none =>
      -- a mandatory field that is not a member would not be among those given
      refine Bool.eq_false_iff.2 fun hmandatory => ?_
      have hmem := (mem_given_iff members hset field.name).1 (hgiven field hfield hmandatory)
      simp [hj] at hmem
  · rintro ⟨htakes, hclosed⟩
    have haccepts := (forall_accepts_iff hnames members).2
      ⟨fun field hfield j hj => by simpa [hj] using htakes field hfield, hclosed⟩
    obtain ⟨⟨given, record⟩, hset⟩ : ∃ out,
        schema.setMembers .value (Document.ofEntries members) [] schema.default = .ok out :=
      (exists_setMembers_ok_iff members (by simp) schema.default).2 haccepts
    refine ⟨record, ofValue_obj_ok_iff.2 ⟨given, hset, fun field hfield hmandatory => ?_⟩⟩
    rw [mem_given_iff members hset]
    refine .inr ⟨?_, by simp [field?_name hnames hfield]⟩
    have hfield := htakes field hfield
    cases hj : members.get? field.name with
    | some j => rfl
    | none => simp [hj, Field.Takes, hmandatory] at hfield

/-! ## The decoded record -/

/-- The field of the name sets the part of the record that is read; no other field touches it. -/
structure Carries (schema : Schema ρ) (name : String) (decoder : Decoder α) (get : ρ → α) :
    Prop where
  own : ∃ field, schema.field? name = some field ∧ field.Sets decoder get
  other : ∀ field ∈ schema.fields, field.name ≠ name → field.Keeps get

namespace Carries

variable {name : String} {decoder : Decoder α} {get : ρ → α}

theorem ofMember_eq_of_setMembers (hcarries : schema.Carries name decoder get)
    {bound : Option String} (members : Entries Json bound) {given given' : List String}
    {record record' : ρ}
    (h : schema.setMembers .value (Document.ofEntries members) given record =
      .ok (given', record')) :
    decoder.ofMember (get record) (members.get? name) = .ok (get record') := by
  induction members generalizing given record with
  | nil =>
    rw [Document.ofEntries, setMembers] at h
    cases h
    rfl
  | cons key above j rest ih =>
    rw [Document.ofEntries] at h
    rw [Entries.get?_cons]
    rcases setMembers_cons_ok_iff.1 h with ⟨hf, -, h⟩ | ⟨field, f, hf, -, hdecode, h⟩
    · -- an ignored member is not the one of this name, whose field is found
      have hne : name ≠ key := by
        rintro rfl
        obtain ⟨field, hown, -⟩ := hcarries.own
        rw [hf] at hown
        cases hown
      rw [if_neg hne]
      exact ih h
    · have hrest := ih h
      by_cases hn : name = key
      · -- the keys that follow are greater, so nothing is set twice
        subst hn
        rw [Entries.get?_bound] at hrest
        obtain ⟨own, hown, hsets⟩ := hcarries.own
        obtain rfl : field = own := Option.some.inj (hf.symm.trans hown)
        obtain ⟨value, hvalue, hget⟩ := hsets _ f hdecode
        rw [if_pos rfl, Decoder.ofMember, Decoder.ofValue, hvalue, ← hget record]
        exact hrest
      · obtain ⟨hfield, rfl⟩ := mem_of_field? hf
        rw [if_neg hn, ← hcarries.other field hfield (Ne.symm hn) _ f hdecode record]
        exact hrest

/-- In the decoded record, the part is what the member of the name stands for. -/
theorem ofMember_eq (hcarries : schema.Carries name decoder get) {members : Dict Json} {record : ρ}
    (h : Decoder.ofValue schema.decoder (.obj members) = .ok record) :
    decoder.ofMember (get schema.default) (members.get? name) = .ok (get record) := by
  obtain ⟨given, hset, -⟩ := ofValue_obj_ok_iff.1 h
  exact hcarries.ofMember_eq_of_setMembers members hset

end Carries

end Schema

end AccessPlan
