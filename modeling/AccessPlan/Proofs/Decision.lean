import AccessPlan.Proofs.Records
import AccessPlan.Proofs.Simulation

/-!
# The decision from the wire to the filter

What an object grants when it is decoded as a response and the response is compiled.

* `Response.WellFormed`: the objects that are responses. Neither the member for the plan nor members
  of other names matter. `Response.decodes_iff_wellFormed`.
* `PlanKind.GivenBy`, `Response.planIn`: the kind and the plan of a response in terms of the object.
* `Response.grants_only_as_given`: no access is granted beyond what the object says
  (`Response.GrantsAsGiven`).
-/

namespace AccessPlan

/-! ## The kind -/

namespace PlanKind

/-- The value stands for the kind: it is the tag, or an object in which the tag leads to nothing. -/
def NamedBy (kind : PlanKind) (j : Json) : Prop := j = .str kind.tag ∨ j = .single kind.tag .null

/-- The kind of a response that has this for its kind; without any it is conditional. -/
def GivenBy (kind : PlanKind) : Option Json → Prop
  | none => kind = .conditional
  | some j => kind.NamedBy j

theorem ofValue_ok_iff {j : Json} {kind : PlanKind} :
    Decoder.ofValue decoder j = .ok kind ↔ kind.NamedBy j :=
  Decoder.variant_named_ok_iff fun kind => by cases kind <;> decide

theorem ofMember_ok_iff {given : Option Json} {kind : PlanKind} :
    Decoder.ofMember decoder .conditional given = .ok kind ↔ kind.GivenBy given := by
  cases given with
  | none => simp [Decoder.ofMember, GivenBy, eq_comm]
  | some j => exact ofValue_ok_iff

end PlanKind

namespace Response

/-! ## Responses on the wire -/

/-- What an object has to satisfy to be a response. -/
structure WellFormed (members : Dict Json) : Prop where
  requestId : ∀ j, members.get? "requestId" = some j → j = .null ∨ ∃ value, j = .str value
  action : ∀ j, members.get? "action" = some j → ∃ value, j = .str value
  resourceKind : ∀ j, members.get? "resourceKind" = some j → ∃ value, j = .str value
  policyVersion : ∀ j, members.get? "policyVersion" = some j → ∃ value, j = .str value
  kind : ∀ j, members.get? "kind" = some j → ∃ kind : PlanKind, kind.NamedBy j

/-- The plan that a value stands for: none if it is `null`. -/
def planOf : Json → Option Operand
  | .null => none
  | j => some (.ofJson j)

/-- The plan that an object has. -/
def planIn (members : Dict Json) : Option Operand := (members.get? "filter").bind planOf

theorem ofValue_filter (j : Json) :
    Decoder.ofValue (.optional Operand.decoder) j = .ok (planOf j) := by
  have hplan : Operand.decoder .value (.ofJson j) = .ok (.ofJson j) := by
    rw [Operand.decoder, Decoder.json_ok]
    rfl
  rw [Decoder.ofValue, Decoder.optional_ok_iff]
  by_cases hj : j = .null
  · subst hj
    exact .inl ⟨rfl, rfl⟩
  · refine .inr ⟨hj, .ofJson j, hplan, ?_⟩
    unfold planOf
    split
    · contradiction
    · rfl

/-- An object is a response if it is well-formed, whatever else it has. -/
theorem decodes_iff_wellFormed (members : Dict Json) :
    (∃ r, Decoder.ofValue decoder (.obj members) = .ok r) ↔ WellFormed members := by
  have hnames : schema.fieldNames.Nodup := by decide
  rw [decoder, Schema.decodes_obj_iff hnames]
  simp only [schema, List.forall_mem_cons, Field.takes_defaulted_iff,
    Decoder.exists_optional_ok_iff, Decoder.exists_string_ok_iff, PlanKind.ofValue_ok_iff,
    ofValue_filter]
  constructor
  · rintro ⟨⟨h₁, h₂, h₃, h₄, h₅, -⟩, -⟩
    exact ⟨h₁, h₂, h₃, h₄, h₅⟩
  · rintro ⟨h₁, h₂, h₃, h₄, h₅⟩
    refine ⟨⟨h₁, h₂, h₃, h₄, h₅, ?_, ?_⟩, by simp⟩
    · exact fun j _ => ⟨planOf j, rfl⟩
    · simp

theorem carries_kind : schema.Carries "kind" PlanKind.decoder kind where
  own := ⟨_, rfl, Field.sets_defaulted fun _ _ => rfl⟩
  other := by simp [schema, Field.defaulted, Field.keeps_of_setter]

theorem carries_filter : schema.Carries "filter" (.optional Operand.decoder) filter where
  own := ⟨_, rfl, Field.sets_defaulted fun _ _ => rfl⟩
  other := by simp [schema, Field.defaulted, Field.keeps_of_setter]

variable {members : Dict Json} {r : Response}

theorem kind_eq_iff (h : Decoder.ofValue decoder (.obj members) = .ok r) (kind : PlanKind) :
    r.kind = kind ↔ kind.GivenBy (members.get? "kind") := by
  have hkind : PlanKind.decoder.ofMember .conditional (members.get? "kind") = .ok r.kind :=
    carries_kind.ofMember_eq h
  rw [← PlanKind.ofMember_ok_iff, hkind, Except.ok.injEq]

theorem filter_eq_planIn (h : Decoder.ofValue decoder (.obj members) = .ok r) :
    r.filter = planIn members := by
  have hmember := carries_filter.ofMember_eq h
  unfold planIn
  cases hj : members.get? "filter" with
  | none =>
    rw [hj] at hmember
    exact (Except.ok.inj hmember).symm
  | some j =>
    rw [hj, Decoder.ofMember, ofValue_filter] at hmember
    exact (Except.ok.inj hmember).symm

/-! ## Compiling -/

variable {σ : Type} (treatment : Treatment) (resolver : Resolver σ) (state : σ)

theorem run_compile_alwaysDenied (h : r.kind = .alwaysDenied) :
    (r.compile treatment resolver).run state =
      ⟨.error .denied, [.compilingResponse .alwaysDenied r.resourceKind, .alwaysDenied],
        state⟩ := by
  simp [compile, h, LogM.run_bind]

theorem run_compile_alwaysAllowed (h : r.kind = .alwaysAllowed) :
    (r.compile treatment resolver).run state =
      ⟨.ok .empty, [.compilingResponse .alwaysAllowed r.resourceKind, .alwaysAllowed],
        state⟩ := by
  simp [compile, h, LogM.run_bind, LogM.run_map, Except.map]

theorem run_compile_missingCondition (h : r.kind = .conditional) (hfilter : r.filter = none) :
    (r.compile treatment resolver).run state =
      ⟨.error .missingCondition, [.compilingResponse .conditional r.resourceKind], state⟩ := by
  simp [compile, h, hfilter, LogM.run_bind]

theorem run_compile_conditional {plan : Operand} (h : r.kind = .conditional)
    (hfilter : r.filter = some plan) :
    (r.compile treatment resolver).run state =
      let compiled := (plan.compile treatment resolver).run state
      ⟨compiled.result, .compilingResponse .conditional r.resourceKind :: compiled.log,
        compiled.state⟩ := by
  simp [compile, h, hfilter, LogM.run_bind]

/-- There is no constraint if everything is allowed, or if the plan is one node that is skipped. -/
theorem result_compile_eq_empty_iff {treatment : Treatment} {resolver : Resolver σ} {state : σ} :
    ((r.compile treatment resolver).run state).result = .ok .empty ↔
      r.kind = .alwaysAllowed ∨
        treatment = .skip ∧ r.kind = .conditional ∧ ∃ plan, r.filter = some plan ∧ plan.Dead := by
  cases hkind : r.kind with
  | alwaysAllowed => simp [run_compile_alwaysAllowed treatment resolver state hkind]
  | alwaysDenied => simp [run_compile_alwaysDenied treatment resolver state hkind]
  | conditional =>
    cases hfilter : r.filter with
    | none => simp [run_compile_missingCondition treatment resolver state hkind hfilter]
    | some plan =>
      rw [run_compile_conditional treatment resolver state hkind hfilter]
      simp [Operand.result_compile_eq_empty_iff]

/-! ## From the wire to the filter -/

/-- What compiling a response leaves, in terms of the object that it was decoded from. -/
structure Decided (members : Dict Json) (r : Response) (treatment : Treatment)
    (resolver : Resolver σ) (state : σ) : Prop where
  /-- Everything is denied, without a call of the resolver. -/
  denied : PlanKind.alwaysDenied.GivenBy (members.get? "kind") →
    (r.compile treatment resolver).run state =
      ⟨.error .denied, [.compilingResponse .alwaysDenied r.resourceKind, .alwaysDenied], state⟩
  /-- Everything is allowed, without a call of the resolver. -/
  allowed : PlanKind.alwaysAllowed.GivenBy (members.get? "kind") →
    (r.compile treatment resolver).run state =
      ⟨.ok .empty, [.compilingResponse .alwaysAllowed r.resourceKind, .alwaysAllowed], state⟩
  /-- There is no plan to decide by, and the resolver is not called. -/
  missing : PlanKind.conditional.GivenBy (members.get? "kind") → planIn members = none →
    (r.compile treatment resolver).run state =
      ⟨.error .missingCondition, [.compilingResponse .conditional r.resourceKind], state⟩
  /-- The plan decides. -/
  compiled : ∀ plan, PlanKind.conditional.GivenBy (members.get? "kind") →
    planIn members = some plan →
      (r.compile treatment resolver).run state =
        let compiled := (plan.compile treatment resolver).run state
        ⟨compiled.result, .compilingResponse .conditional r.resourceKind :: compiled.log,
          compiled.state⟩
  /-- If plans may be rejected, only an object that allows everything leads to no constraint. -/
  rejecting : treatment = .reject →
    (((r.compile treatment resolver).run state).result = .ok .empty ↔
      PlanKind.alwaysAllowed.GivenBy (members.get? "kind"))
  /-- If nodes may be skipped, so does an object whose plan is one dead node. -/
  skipping : treatment = .skip →
    (((r.compile treatment resolver).run state).result = .ok .empty ↔
      PlanKind.alwaysAllowed.GivenBy (members.get? "kind") ∨
        PlanKind.conditional.GivenBy (members.get? "kind") ∧
          ∃ plan, planIn members = some plan ∧ plan.Dead)

theorem decided_of_ok (h : Decoder.ofValue decoder (.obj members) = .ok r) :
    Decided members r treatment resolver state := by
  have hfilter := filter_eq_planIn h
  have hempty : ((r.compile treatment resolver).run state).result = .ok .empty ↔ _ :=
    result_compile_eq_empty_iff
  constructor
  case denied => exact fun hkind => run_compile_alwaysDenied _ _ _ ((kind_eq_iff h _).2 hkind)
  case allowed => exact fun hkind => run_compile_alwaysAllowed _ _ _ ((kind_eq_iff h _).2 hkind)
  case missing =>
    intro hkind hplan
    exact run_compile_missingCondition _ _ _ ((kind_eq_iff h _).2 hkind) (hfilter.trans hplan)
  case compiled =>
    intro plan hkind hplan
    exact run_compile_conditional _ _ _ ((kind_eq_iff h _).2 hkind) (hfilter.trans hplan)
  case rejecting =>
    rintro rfl
    rw [hempty, kind_eq_iff h]
    simp
  case skipping =>
    rintro rfl
    rw [hempty, kind_eq_iff h, kind_eq_iff h, hfilter]
    simp

/-- What becomes of an object that is decoded as a response. -/
structure GrantsAsGiven (members : Dict Json) : Prop where
  /-- It is accepted if it is well-formed. -/
  accepted : (∃ r, Decoder.ofValue decoder (.obj members) = .ok r) ↔ WellFormed members
  /-- The plan is that of the object. -/
  filter : ∀ r, Decoder.ofValue decoder (.obj members) = .ok r → r.filter = planIn members
  /-- So is the kind. -/
  kind : ∀ r, Decoder.ofValue decoder (.obj members) = .ok r →
    ∀ kind, r.kind = kind ↔ kind.GivenBy (members.get? "kind")
  /-- They decide what compiling leaves. -/
  outcomes : ∀ r, Decoder.ofValue decoder (.obj members) = .ok r →
    ∀ (σ : Type) (treatment : Treatment) (resolver : Resolver σ) (state : σ),
      Decided members r treatment resolver state
  /-- The same with the calls of the resolver kept in its state. -/
  calls : ∀ r, Decoder.ofValue decoder (.obj members) = .ok r →
    ∀ (σ : Type) (treatment : Treatment) (resolver : Resolver σ) (state : σ),
      Decided members r treatment resolver.traced (state, [])
  /-- Keeping the calls changes nothing else. -/
  plain : ∀ r, Decoder.ofValue decoder (.obj members) = .ok r →
    ∀ (σ : Type) (treatment : Treatment) (resolver : Resolver σ) (state : σ),
      (r.compile treatment resolver).run state =
        let traced := (r.compile treatment resolver.traced).run (state, [])
        ⟨traced.result, traced.log, traced.state.1⟩

/-- No access is granted beyond what the object says. -/
theorem grants_only_as_given (members : Dict Json) : GrantsAsGiven members where
  accepted := decodes_iff_wellFormed members
  filter _ h := filter_eq_planIn h
  kind _ h := kind_eq_iff h
  outcomes _ h _ treatment resolver state := decided_of_ok treatment resolver state h
  calls _ h _ treatment resolver state := decided_of_ok treatment resolver.traced (state, []) h
  plain r _ _ treatment resolver state := run_compile_traced treatment resolver r state []

-- the expression under `filter` is the plan of the response, and its filter is what is granted
example :
    let raw := Json.ofMembers [("kind", .str "KIND_CONDITIONAL"),
      ("filter", .ofMembers [("expression", .ofMembers [("operator", .str "eq"),
        ("operands", .arr [.ofMembers [("variable", .str "owner")],
          .ofMembers [("value", .str "me")]])])])]
    let r : Response := ⟨none, "", "", "", .conditional,
      some (.comparison (.compare (.relate .equal)) "owner" (.str "me"))⟩
    Decoder.ofValue decoder raw = .ok r ∧
      ((r.compile .reject (.identity : Resolver Unit)).run ()).result =
        .ok (.field "owner" (.relate .equal (.str "me"))) :=
  ⟨rfl, rfl⟩

end Response

end AccessPlan
