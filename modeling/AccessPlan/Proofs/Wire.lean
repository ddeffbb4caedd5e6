import AccessPlan.Plan.Request
import AccessPlan.Proofs.Canonical
import AccessPlan.Proofs.Decision
import AccessPlan.Proofs.Filling

/-!
# Responses and requests on the wire

What is put out for a response or a request is decoded to what it was put out for. The exception are
responses whose plan is read back as something else, and these are never decoded from anything.

* `Operand.Legible`: the plans that are read back as they are when they are part of a response.
* `Response.ofValue_toJson`: what a response is read back as.
* `Response.Readable`: the responses that are read back as they are. `Response.readable_of_decoder`:
  every decoded response is one.
* `Principal.ofValue_toJson`, `Resource.ofValue_toJson`, `Request.ofValue_toJson`: a request is read
  back with all its parts.
* `survive_wire`: all of this together (`WireTrips`).
-/

namespace AccessPlan

/-! ## Parts -/

namespace Decoder

/-- A list is read back if its items are. -/
theorem ofValue_listOf {α : Type} {decoder : Decoder α} {encode : α → Json}
    (h : ∀ value, ofValue decoder (encode value) = .ok value) (values : List α) :
    ofValue (listOf decoder) (.arr (values.map encode)) = .ok values := by
  have hitems : (Document.ofItems (values.map encode)).mapM (decoder .value) = .ok values := by
    induction values with
    | nil => rfl
    | cons value rest ih =>
      have hvalue : decoder .value (.ofJson (encode value)) = .ok value := h value
      rw [List.map_cons, Document.ofItems, List.mapM_cons, hvalue, ih]
      rfl
  rw [ofValue, Document.ofJson, listOf, hitems]
  rfl

theorem ofValue_dictOf_json (members : Dict Json) :
    ofValue (dictOf json) (.obj members) = .ok members := by
  refine ofValue_dictOf_ok_iff.2 ⟨members, rfl, fun k => ?_⟩
  cases members.get? k with
  | none => rfl
  | some j => exact congrArg some (json_ok .value j)

theorem ofMember_of_some {α : Type} {decoder : Decoder α} {given : Option Json} {j : Json}
    {value default : α} (h : given = some j) (hvalue : ofValue decoder j = .ok value) :
    decoder.ofMember default given = .ok value := by
  rw [h]
  exact hvalue

/-- What may be absent is left out if it is. -/
theorem ofMember_optional_string {given : Option Json} {value : Option String}
    (h : given = value.map .str) : (optional string).ofMember none given = .ok value := by
  rw [h]
  cases value <;> rfl

end Decoder

/-! ## Plans -/

namespace Operand

theorem toJson_eq_null_iff {o : Operand} : o.toJson = .null ↔ o = .unrecognized .null := by
  cases o with
  | unrecognized raw =>
    have hraw : (unrecognized raw).toJson = raw := rfl
    rw [hraw, unrecognized.injEq]
  | expression operator operands => exact iff_of_false nofun nofun
  | reference path => exact iff_of_false nofun nofun
  | literal value => exact iff_of_false nofun nofun

/-- The plan of a response is read back as it is: it is canonical, and it is not put out as
`null`. -/
def Legible (o : Operand) : Prop := o.Canonical ∧ o ≠ .unrecognized .null

end Operand

/-- Only `null` is read as `null`. -/
theorem Document.eq_null_of_toJson {d : Document} (h : d.toJson = .ok .null) : d = .null := by
  cases d with
  | null => rfl
  | arr items close =>
    rw [toJson] at h
    obtain ⟨_, -, h⟩ := Except.bind_eq_ok_iff.1 h
    obtain ⟨_, -, h⟩ := Except.bind_eq_ok_iff.1 h
    cases h
  | obj members close =>
    rw [toJson] at h
    obtain ⟨_, -, h⟩ := Except.bind_eq_ok_iff.1 h
    obtain ⟨_, -, h⟩ := Except.bind_eq_ok_iff.1 h
    cases h
  | _ => cases h

namespace Response

theorem planOf_of_ne {j : Json} (h : j ≠ .null) : planOf j = some (.ofJson j) := by
  cases j with
  | null => exact absurd rfl h
  | _ => rfl

theorem planOf_toJson {o : Operand} (h : o.Legible) : planOf o.toJson = some o := by
  obtain ⟨hcanonical, hne⟩ := h
  rw [planOf_of_ne (mt Operand.toJson_eq_null_iff.1 hne),
    Operand.ofJson_toJson_of_canonical hcanonical]

theorem legible_of_same {o plan : Operand} (h : planOf o.toJson = some plan)
    (hsame : plan.same o = true) : o.Legible := by
  have hne : o.toJson ≠ .null := by
    intro hnull
    rw [hnull] at h
    cases h
  rw [planOf_of_ne hne] at h
  obtain rfl : Operand.ofJson o.toJson = plan := Option.some.inj h
  exact ⟨Operand.canonical_of_same o hsame, mt Operand.toJson_eq_null_iff.2 hne⟩

/-- The plan of a response is decoded from anything but `null`. -/
theorem legible_of_decoder {medium : Medium} {d : Document} {plan? : Option Operand}
    (h : Decoder.optional Operand.decoder medium d = .ok plan?) :
    ∀ o, plan? = some o → o.Legible := by
  rintro o rfl
  unfold Decoder.optional at h
  split at h
  · cases h
  · rename_i hnull
    obtain ⟨plan, hplan, hsome⟩ := Except.map_eq_ok_iff.1 h
    obtain rfl : plan = o := Option.some.inj hsome
    obtain ⟨j, hj, rfl⟩ := Except.map_eq_ok_iff.1 hplan
    -- only `null` is kept as `null`, and then there would be no plan
    refine ⟨Operand.canonical_ofJson j, fun hunrecognized => ?_⟩
    obtain rfl := Operand.eq_of_ofJson_eq_unrecognized hunrecognized
    exact hnull (Document.eq_null_of_toJson (Decoder.reading_ok_iff.1 hj))

/-! ## Responses -/

theorem exists_members (r : Response) : ∃ members : Dict Json, r.toJson = .obj members ∧
    members.get? "requestId" = r.requestId.map .str ∧
    members.get? "action" = some (.str r.action) ∧
    members.get? "resourceKind" = some (.str r.resourceKind) ∧
    members.get? "policyVersion" = some (.str r.policyVersion) ∧
    members.get? "kind" = some (.str r.kind.tag) ∧
    members.get? "filter" = r.filter.map Operand.toJson := by
  refine ⟨_, rfl, ?_⟩
  cases hrequestId : r.requestId <;> cases hfilter : r.filter <;>
    simp [Dict.get?_ofList, Written.toMembers, Written.optional, Written.str, Written.toJson,
      PlanKind.written, Operand.toJson, List.lookup_cons]

theorem ofMember_filter {given : Option Json} {plan? : Option Operand}
    (h : given = plan?.map Operand.toJson) :
    (Decoder.optional Operand.decoder).ofMember none given =
      .ok (plan?.bind fun plan => planOf plan.toJson) := by
  rw [h]
  cases plan? with
  | none => rfl
  | some plan => exact ofValue_filter plan.toJson

theorem ofMember_kind {given : Option Json} {kind : PlanKind} (h : given = some (.str kind.tag)) :
    PlanKind.decoder.ofMember .conditional given = .ok kind :=
  PlanKind.ofMember_ok_iff.2 (h ▸ .inl rfl)

/-- A response is read back with the plan that its plan is read back as. -/
theorem ofValue_toJson (r : Response) :
    Decoder.ofValue decoder r.toJson =
      .ok { r with filter := r.filter.bind fun plan => planOf plan.toJson } := by
  obtain ⟨members, hjson, hrequestId, haction, hresourceKind, hpolicyVersion, hkind, hfilter⟩ :=
    r.exists_members
  rw [hjson, decoder, Schema.ofValue_obj_ok_iff_fill (by decide)
    (by simp [schema, Field.defaulted, Field.commutes_of_setters])]
  refine ⟨?_, by simp [schema, Field.defaulted], by simp [schema]⟩
  simp only [schema]
  rw [Schema.fill_defaulted ⟨r.requestId, "", "", "", .conditional, none⟩
      (Decoder.ofMember_optional_string hrequestId) rfl rfl,
    Schema.fill_defaulted ⟨r.requestId, r.action, "", "", .conditional, none⟩
      (Decoder.ofMember_of_some haction rfl) rfl rfl,
    Schema.fill_defaulted ⟨r.requestId, r.action, r.resourceKind, "", .conditional, none⟩
      (Decoder.ofMember_of_some hresourceKind rfl) rfl rfl,
    Schema.fill_defaulted
      ⟨r.requestId, r.action, r.resourceKind, r.policyVersion, .conditional, none⟩
      (Decoder.ofMember_of_some hpolicyVersion rfl) rfl rfl,
    Schema.fill_defaulted ⟨r.requestId, r.action, r.resourceKind, r.policyVersion, r.kind, none⟩
      (ofMember_kind hkind) rfl rfl,
    Schema.fill_defaulted _ (ofMember_filter hfilter) rfl rfl]
  rfl

/-- The responses that are read back as they are. -/
def Readable (r : Response) : Prop := ∀ plan, r.filter = some plan → plan.Legible

theorem ofValue_toJson_of_readable {r : Response} (h : r.Readable) :
    Decoder.ofValue decoder r.toJson = .ok r := by
  rw [ofValue_toJson]
  cases hfilter : r.filter with
  | none => rw [Option.bind_none, ← hfilter]
  | some plan => rw [Option.bind_some, planOf_toJson (h plan hfilter), ← hfilter]

theorem same_self (r : Response) : r.same r = true := by
  cases hfilter : r.filter <;> simp [same, hfilter]

/-- A response that is read back up to equality of its literals as JSON is readable. -/
theorem readable_of_same {r s : Response} (h : Decoder.ofValue decoder r.toJson = .ok s)
    (hsame : s.same r = true) : r.Readable := by
  rw [ofValue_toJson] at h
  obtain rfl := Except.ok.inj h
  intro o ho
  simp only [same, ho, Option.bind_some, Bool.and_eq_true] at hsame
  cases hplan : planOf o.toJson with
  | none => simp [hplan] at hsame
  | some plan => exact legible_of_same hplan (by simpa [hplan] using hsame.2)

/-- Every decoded response is readable, whatever it was decoded from. -/
theorem readable_of_decoder {medium : Medium} {d : Document} {r : Response}
    (h : decoder medium d = .ok r) : r.Readable := by
  refine Schema.holds_of_decoder (p := Readable) (by simp [Readable, schema]) ?_ h
  simp only [schema, List.forall_mem_cons]
  refine ⟨?_, ?_, ?_, ?_, ?_, ?_, by simp⟩
  -- only the field `filter` sets the plan
  case refine_6 =>
    exact Field.preserves_defaulted fun _ _ _ hplan _ _ => legible_of_decoder hplan
  all_goals exact Field.preserves_defaulted fun _ _ _ _ _ hreadable => hreadable

end Response

/-! ## Requests -/

namespace Principal

theorem exists_members (p : Principal) : ∃ members : Dict Json, p.written.toJson = .obj members ∧
    members.get? "id" = some (.str p.id) ∧
    members.get? "roles" = some (.arr (p.roles.map .str)) ∧
    members.get? "attr" = some (.obj p.attributes) ∧
    members.get? "policyVersion" = p.policyVersion.map .str := by
  refine ⟨_, rfl, ?_⟩
  cases hversion : p.policyVersion <;>
    simp [Dict.get?_ofList, Written.toMembers, Written.optional, Written.str, Written.dict,
      Written.toJson, Written.toItems_eq_map, List.lookup_cons]

theorem ofValue_toJson (p : Principal) : Decoder.ofValue decoder p.written.toJson = .ok p := by
  obtain ⟨members, hjson, hid, hroles, hattributes, hpolicyVersion⟩ := p.exists_members
  rw [hjson, decoder, Schema.ofValue_obj_ok_iff_fill (by decide)
    (by simp [schema, Field.required, Field.defaulted, Field.commutes_of_setters])]
  refine ⟨?_, by simp [schema, Field.defaulted, Field.required, hid], by simp [schema]⟩
  simp only [schema]
  rw [Schema.fill_required ⟨p.id, [], .empty, none⟩ hid rfl rfl,
    Schema.fill_defaulted ⟨p.id, p.roles, .empty, none⟩
      (Decoder.ofMember_of_some hroles (Decoder.ofValue_listOf (fun _ => rfl) p.roles)) rfl rfl,
    Schema.fill_defaulted ⟨p.id, p.roles, p.attributes, none⟩
      (Decoder.ofMember_of_some hattributes (Decoder.ofValue_dictOf_json _)) rfl rfl,
    Schema.fill_defaulted p (Decoder.ofMember_optional_string hpolicyVersion) rfl rfl]
  rfl

end Principal

namespace Resource

theorem exists_members (r : Resource) : ∃ members : Dict Json, r.written.toJson = .obj members ∧
    members.get? "kind" = some (.str r.kind) ∧
    members.get? "attr" = some (.obj r.attributes) ∧
    members.get? "policyVersion" = r.policyVersion.map .str := by
  refine ⟨_, rfl, ?_⟩
  cases hversion : r.policyVersion <;>
    simp [Dict.get?_ofList, Written.toMembers, Written.optional, Written.str, Written.dict,
      Written.toJson, List.lookup_cons]

theorem ofValue_toJson (r : Resource) : Decoder.ofValue decoder r.written.toJson = .ok r := by
  obtain ⟨members, hjson, hkind, hattributes, hpolicyVersion⟩ := r.exists_members
  rw [hjson, decoder, Schema.ofValue_obj_ok_iff_fill (by decide)
    (by simp [schema, Field.required, Field.defaulted, Field.commutes_of_setters])]
  refine ⟨?_, by simp [schema, Field.defaulted, Field.required, hkind], by simp [schema]⟩
  simp only [schema]
  rw [Schema.fill_required ⟨r.kind, .empty, none⟩ hkind rfl rfl,
    Schema.fill_defaulted ⟨r.kind, r.attributes, none⟩
      (Decoder.ofMember_of_some hattributes (Decoder.ofValue_dictOf_json _)) rfl rfl,
    Schema.fill_defaulted r (Decoder.ofMember_optional_string hpolicyVersion) rfl rfl]
  rfl

end Resource

namespace Request

theorem exists_members (q : Request) : ∃ members : Dict Json, q.toJson = .obj members ∧
    members.get? "requestId" = q.requestId.map .str ∧
    members.get? "principal" = some q.principal.written.toJson ∧
    members.get? "resource" = some q.resource.written.toJson ∧
    members.get? "action" = some (.str q.action) := by
  refine ⟨_, rfl, ?_⟩
  cases hrequestId : q.requestId <;>
    simp [Dict.get?_ofList, Written.toMembers, Written.optional, Written.str, Written.toJson,
      List.lookup_cons]

/-- A request is read back as it is. -/
theorem ofValue_toJson (q : Request) : Decoder.ofValue decoder q.toJson = .ok q := by
  obtain ⟨members, hjson, hrequestId, hprincipal, hresource, haction⟩ := q.exists_members
  rw [hjson, decoder, Schema.ofValue_obj_ok_iff_fill (by decide)
    (by simp [schema, Field.required, Field.defaulted, Field.commutes_of_setters])]
  refine ⟨?_, by simp [schema, Field.defaulted, Field.required, hprincipal, hresource, haction],
    by simp [schema]⟩
  simp only [schema]
  rw [Schema.fill_defaulted ⟨q.requestId, Principal.schema.default, Resource.schema.default, ""⟩
      (Decoder.ofMember_optional_string hrequestId) rfl rfl,
    Schema.fill_required ⟨q.requestId, q.principal, Resource.schema.default, ""⟩
      hprincipal q.principal.ofValue_toJson rfl,
    Schema.fill_required ⟨q.requestId, q.principal, q.resource, ""⟩
      hresource q.resource.ofValue_toJson rfl,
    Schema.fill_required q haction rfl rfl]
  rfl

end Request

/-! ## The round trips -/

/-- What becomes of responses and requests that are put out and read back. -/
structure WireTrips : Prop where
  /-- The readable responses are the ones that are read back as they are. -/
  responses : ∀ r : Response, Decoder.ofValue Response.decoder r.toJson = .ok r ↔ r.Readable
  /-- No other one is even read back up to equality of its literals as JSON. -/
  responsesAsJson : ∀ r : Response,
    (∃ s, Decoder.ofValue Response.decoder r.toJson = .ok s ∧ s.same r = true) ↔ r.Readable
  decoded : ∀ medium d r, Response.decoder medium d = .ok r → r.Readable
  /-- Reading, writing and reading again is reading once. -/
  again : ∀ raw r, Decoder.ofValue Response.decoder raw = .ok r →
    Decoder.ofValue Response.decoder r.toJson = .ok r
  requests : ∀ q : Request, Decoder.ofValue Request.decoder q.toJson = .ok q

/-- Responses are read back as they are if they are readable, and every decoded response is.
Requests are all read back as they are. -/
theorem survive_wire : WireTrips where
  responses _ := ⟨Response.readable_of_decoder, Response.ofValue_toJson_of_readable⟩
  responsesAsJson r := by
    constructor
    · rintro ⟨s, h, hsame⟩
      exact Response.readable_of_same h hsame
    · intro h
      exact ⟨r, Response.ofValue_toJson_of_readable h, r.same_self⟩
  decoded _ _ _ := Response.readable_of_decoder
  again _ _ h := Response.ofValue_toJson_of_readable (Response.readable_of_decoder h)
  requests := Request.ofValue_toJson

end AccessPlan
