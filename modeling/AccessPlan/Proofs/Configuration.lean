import AccessPlan.Config
import AccessPlan.Proofs.Records

/-!
# Configurations on the wire

What an object means that is decoded as a configuration. It may be partial, but nothing in it is
passed over: a member that is not known is refused, and so is `null`.

* `Config.WellFormed`: the objects that are configurations. `Config.decodes_iff_wellFormed`.
* `Config.treatmentIn`, `Config.strictIn`, `Config.answerIn`: what an object says is done with dead
  nodes, whether its field map is strict, and what it answers to a path.
* `Config.unknownOperators_eq`, `Config.resolve_fieldMap`: a decoded configuration does as its
  object says.
* `Config.obeyed_as_written`: so does all compiling with it (`Config.ObeyedAsWritten`).
-/

namespace AccessPlan

/-- The variant that a value names, if it names one. -/
def Json.named? : Json → Option String
  | .str name => some name
  | .obj (.cons name _ .null .nil) => some name
  | _ => none

theorem Json.named?_eq_some_iff {j : Json} {name : String} :
    j.named? = some name ↔ j.Names name := by
  constructor
  · intro h
    unfold named? at h
    split at h
    · exact .inl (congrArg str (Option.some.inj h))
    · obtain rfl := Option.some.inj h
      exact .inr rfl
    · cases h
  · rintro (rfl | rfl) <;> rfl

theorem Treatment.ofValue_ok_iff {j : Json} {treatment : Treatment} :
    Decoder.ofValue decoder j = .ok treatment ↔ j.Names treatment.name :=
  Decoder.variant_named_ok_iff fun treatment => by cases treatment <;> decide

namespace Config

/-! ## Configurations as objects -/

/-- What an object has to satisfy to be a configuration. -/
structure WellFormed (members : Dict Json) : Prop where
  known : ∀ name, (members.get? name).isSome →
    name ∈ ["unknown_operators", "field_names", "strict_field_names"]
  unknownOperators : ∀ j, members.get? "unknown_operators" = some j →
    j.Names "skip" ∨ j.Names "reject"
  fieldNames : ∀ j, members.get? "field_names" = some j →
    ∃ fields : Dict Json, j = .obj fields ∧
      ∀ path given, fields.get? path = some given → ∃ field, given = .str field
  strictFieldNames : ∀ j, members.get? "strict_field_names" = some j → ∃ strict, j = .bool strict

/-- What an object says is done with nodes that have no filter. -/
def treatmentIn (members : Dict Json) : Treatment :=
  if (members.get? "unknown_operators").bind Json.named? = some "reject" then .reject else .skip

/-- Whether an object asks for a strict field map. -/
def strictIn (members : Dict Json) : Bool :=
  match members.get? "strict_field_names" with
  | some (.bool strict) => strict
  | _ => false

/-- What an object answers to a path. -/
def answerIn (members : Dict Json) (path : String) : Except ResolveError String :=
  match (members.get? "field_names").bind (Json.member? path) with
  | some (.str field) => .ok field
  | _ => if strictIn members then .error (.unmapped path) else .ok path

/-- `null` stands for nothing in a configuration. -/
theorem WellFormed.ne_null {members : Dict Json} (h : WellFormed members) (name : String) :
    members.get? name ≠ some .null := by
  intro hnull
  have hknown := h.known name (by rw [hnull]; rfl)
  simp only [List.mem_cons, List.not_mem_nil, or_false] at hknown
  rcases hknown with rfl | rfl | rfl
  · rcases h.unknownOperators _ hnull with hj | hj <;> rcases hj with hj | hj <;> cases hj
  · obtain ⟨fields, hj, -⟩ := h.fieldNames _ hnull
    cases hj
  · obtain ⟨strict, hj⟩ := h.strictFieldNames _ hnull
    cases hj

theorem exists_treatment_ok_iff {j : Json} :
    (∃ treatment, Decoder.ofValue Treatment.decoder j = .ok treatment) ↔
      j.Names "skip" ∨ j.Names "reject" := by
  simp only [Treatment.ofValue_ok_iff]
  constructor
  · rintro ⟨treatment, h⟩
    cases treatment with
    | skip => exact .inl h
    | reject => exact .inr h
  · rintro (h | h)
    · exact ⟨.skip, h⟩
    · exact ⟨.reject, h⟩

/-- An object is a configuration if it is well-formed. -/
theorem decodes_iff_wellFormed (members : Dict Json) :
    (∃ c, Decoder.ofValue decoder (.obj members) = .ok c) ↔ WellFormed members := by
  have hnames : schema.fieldNames.Nodup := by decide
  rw [decoder, Schema.decodes_obj_iff hnames]
  simp only [schema, Schema.fieldNames, List.map_cons, List.map_nil, List.forall_mem_cons,
    Field.takes_defaulted_iff, exists_treatment_ok_iff, Decoder.exists_dictOf_ok_iff,
    Decoder.exists_string_ok_iff, Decoder.exists_boolean_ok_iff]
  constructor
  · rintro ⟨⟨h₁, h₂, h₃, -⟩, hclosed⟩
    exact ⟨hclosed trivial, h₁, h₂, h₃⟩
  · rintro ⟨hclosed, h₁, h₂, h₃⟩
    exact ⟨⟨h₁, h₂, h₃, by simp⟩, fun _ => hclosed⟩

/-! ## The decoded configuration -/

theorem carries_unknownOperators :
    schema.Carries "unknown_operators" Treatment.decoder unknownOperators where
  own := ⟨_, rfl, Field.sets_defaulted fun _ _ => rfl⟩
  other := by simp [schema, Field.defaulted, Field.keeps_of_setter]

theorem carries_fieldNames : schema.Carries "field_names" (.dictOf .string) fieldNames where
  own := ⟨_, rfl, Field.sets_defaulted fun _ _ => rfl⟩
  other := by simp [schema, Field.defaulted, Field.keeps_of_setter]

theorem carries_strictFieldNames :
    schema.Carries "strict_field_names" .boolean strictFieldNames where
  own := ⟨_, rfl, Field.sets_defaulted fun _ _ => rfl⟩
  other := by simp [schema, Field.defaulted, Field.keeps_of_setter]

variable {members : Dict Json} {c : Config}

/-- Plans are rejected exactly if the object says so. -/
theorem unknownOperators_eq_reject_iff (h : Decoder.ofValue decoder (.obj members) = .ok c) :
    c.unknownOperators = .reject ↔
      ∃ j, members.get? "unknown_operators" = some j ∧ j.Names "reject" := by
  have hmember : Treatment.decoder.ofMember .skip (members.get? "unknown_operators") =
      .ok c.unknownOperators := carries_unknownOperators.ofMember_eq h
  cases hj : members.get? "unknown_operators" with
  | none =>
    rw [hj] at hmember
    rw [← Except.ok.inj hmember]
    simp
  | some j =>
    rw [hj] at hmember
    have hvalue : Decoder.ofValue Treatment.decoder j = .ok c.unknownOperators := hmember
    have hreject : Decoder.ofValue Treatment.decoder j = .ok .reject ↔ j.Names "reject" :=
      Treatment.ofValue_ok_iff
    simp only [Option.some.injEq, exists_eq_left']
    rw [← hreject, hvalue, Except.ok.injEq]

theorem treatmentIn_eq_reject_iff (members : Dict Json) :
    treatmentIn members = .reject ↔
      ∃ j, members.get? "unknown_operators" = some j ∧ j.Names "reject" := by
  simp [treatmentIn, Option.bind_eq_some_iff, Json.named?_eq_some_iff]

theorem unknownOperators_eq (h : Decoder.ofValue decoder (.obj members) = .ok c) :
    c.unknownOperators = treatmentIn members := by
  have hsame := (unknownOperators_eq_reject_iff h).trans (treatmentIn_eq_reject_iff members).symm
  -- there are two treatments, so that it is enough to know when plans are rejected
  cases htreatment : c.unknownOperators with
  | skip =>
    cases hin : treatmentIn members with
    | skip => rfl
    | reject => simp [htreatment, hin] at hsame
  | reject => exact (hsame.1 htreatment).symm

/-- The fields of paths are those in the object. -/
theorem member?_fieldNames (h : Decoder.ofValue decoder (.obj members) = .ok c) (path : String) :
    (members.get? "field_names").bind (Json.member? path) = (c.fieldNames.get? path).map .str := by
  have hmember : (Decoder.dictOf .string).ofMember .empty (members.get? "field_names") =
      .ok c.fieldNames := carries_fieldNames.ofMember_eq h
  cases hj : members.get? "field_names" with
  | none =>
    rw [hj] at hmember
    rw [← Except.ok.inj hmember]
    rfl
  | some j =>
    rw [hj] at hmember
    obtain ⟨fields, rfl, hfields⟩ := Decoder.ofValue_dictOf_ok_iff.1 hmember
    have hpath := hfields path
    rw [Option.bind_some, Json.member?]
    cases hfield : c.fieldNames.get? path with
    | none =>
      rw [hfield] at hpath
      exact Option.map_eq_none_iff.1 hpath
    | some field =>
      rw [hfield] at hpath
      obtain ⟨given, hgiven, hvalue⟩ := Option.map_eq_some_iff.1 hpath
      rw [hgiven, Decoder.string_ok_iff.1 hvalue]
      rfl

theorem strictFieldNames_eq (h : Decoder.ofValue decoder (.obj members) = .ok c) :
    c.strictFieldNames = strictIn members := by
  have hmember : Decoder.boolean.ofMember false (members.get? "strict_field_names") =
      .ok c.strictFieldNames := carries_strictFieldNames.ofMember_eq h
  unfold strictIn
  cases hj : members.get? "strict_field_names" with
  | none =>
    rw [hj] at hmember
    exact (Except.ok.inj hmember).symm
  | some j =>
    rw [hj] at hmember
    rw [Decoder.boolean_ok_iff.1 hmember]

theorem get?_fieldMap (c : Config) (path : String) :
    c.fieldMap.get? path = c.fieldNames.get? path := by
  have hfields : c.fieldMap.fields = .ofList c.fieldNames.toList := by
    unfold fieldMap
    split <;> rfl
  rw [FieldMap.get?, hfields, Dict.ofList_toList]

/-- The field map answers what the object says. -/
theorem resolve_fieldMap (h : Decoder.ofValue decoder (.obj members) = .ok c) :
    c.fieldMap.resolve = answerIn members := by
  funext path
  rw [FieldMap.resolve, get?_fieldMap, strict_fieldMap, answerIn, member?_fieldNames h,
    strictFieldNames_eq h]
  cases c.fieldNames.get? path with
  | some field => rfl
  | none => rfl

/-- What becomes of an object that is decoded as a configuration. -/
structure ObeyedAsWritten (members : Dict Json) : Prop where
  /-- It is accepted if it is well-formed. -/
  accepted : (∃ c, Decoder.ofValue decoder (.obj members) = .ok c) ↔ WellFormed members
  /-- A member that is `null` is not taken for an absent one. -/
  present : ∀ name, members.get? name = some .null →
    ∀ c, Decoder.ofValue decoder (.obj members) ≠ .ok c
  /-- Plans are rejected exactly if it says so. -/
  rejects : treatmentIn members = .reject ↔
    ∃ j, members.get? "unknown_operators" = some j ∧ j.Names "reject"
  /-- Plans are compiled as it says: with its treatment of nodes that have no filter, over its
  answers to paths. -/
  plans : ∀ c, Decoder.ofValue decoder (.obj members) = .ok c → ∀ (σ : Type) (o : Operand),
    (o.compile c.unknownOperators c.fieldMap.resolver : LogM σ CompileError Filter) =
      o.compile (treatmentIn members) (.ofFunction (answerIn members))
  /-- So are responses. -/
  responses : ∀ c, Decoder.ofValue decoder (.obj members) = .ok c → ∀ (σ : Type) (r : Response),
    (r.compile c.unknownOperators c.fieldMap.resolver : LogM σ CompileError Filter) =
      r.compile (treatmentIn members) (.ofFunction (answerIn members))

/-- A configuration that is accepted is obeyed as it is written. -/
theorem obeyed_as_written (members : Dict Json) : ObeyedAsWritten members where
  accepted := decodes_iff_wellFormed members
  present name hnull c h := ((decodes_iff_wellFormed members).1 ⟨c, h⟩).ne_null name hnull
  rejects := treatmentIn_eq_reject_iff members
  plans c h σ o := by rw [FieldMap.resolver, resolve_fieldMap h, unknownOperators_eq h]
  responses c h σ r := by rw [FieldMap.resolver, resolve_fieldMap h, unknownOperators_eq h]

end Config

end AccessPlan
