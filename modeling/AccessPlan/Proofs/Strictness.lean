import AccessPlan.Config
import AccessPlan.Proofs.Asking

/-!
# Strict field maps

A strict field map refuses the paths that it has no field for, and changes nothing else. A plan
whose comparisons it has fields for, as far as compiling goes, is compiled as over the map that is
not strict. Any other is refused at the first comparison that it has no field for.

* `Operand.compile_congr_of_reached`: compiling depends on a resolver only through the paths of the
  comparisons that it may come to.
* `Operand.GoesPast`: the nodes that compiling gets past. `Operand.exists_goesPast`: there are such
  in every run.
* `Operand.compile_toStrict`, `Operand.result_compile_toStrict`: what strictness does in both cases.
* `strictness_refuses_unmapped`: the same for maps and for configurations.
-/

namespace AccessPlan

variable {σ : Type}

/-! ## Answers of field maps -/

namespace FieldMap

variable {m : FieldMap} {path : String}

theorem resolve_of_get? {field : String} (h : m.get? path = some field) :
    m.resolve path = .ok field := by
  rw [resolve, h]

/-- A map that is not strict refuses nothing. -/
theorem exists_resolve (h : m.strict = false) (path : String) :
    ∃ field, m.resolve path = .ok field := by
  unfold resolve
  split
  · exact ⟨_, rfl⟩
  · rw [h]
    exact ⟨path, rfl⟩

theorem resolve_toStrict_of_isSome (h : (m.get? path).isSome) :
    m.toStrict.resolve path = m.resolve path := by
  obtain ⟨field, hfield⟩ := Option.isSome_iff_exists.1 h
  rw [resolve_of_get? hfield, resolve_of_get? (show m.toStrict.get? path = some field from hfield)]

theorem resolve_toStrict_of_isNone (h : (m.get? path).isNone) :
    m.toStrict.resolve path = .error (.unmapped path) := by
  have hnone : m.toStrict.get? path = none := Option.isNone_iff_eq_none.1 h
  rw [resolve, hnone]
  rfl

end FieldMap

namespace Operand

/-! ## What a resolver is used for -/

theorem compileAll_congr_of_reached {treatment : Treatment} {p q : Resolver σ}
    {nodes : List Operand}
    (h : ∀ path ∈ asked (treatment.reached nodes), p path = q path) :
    Visit.compileAll treatment p (nodes.filterMap visit?) =
      Visit.compileAll treatment q (nodes.filterMap visit?) := by
  induction nodes with
  | nil => rfl
  | cons node rest ih =>
    cases ho : node.obstacle? with
    | some obstacle =>
      rw [List.filterMap_cons_some (visit?_of_obstacle? ho)]
      cases treatment with
      | skip =>
        have hrest := ih fun path hpath => h path (by
          rw [Treatment.reached, ← List.singleton_append, asked_append]
          exact List.mem_append_right _ hpath)
        rw [Visit.compileAll_cons, Visit.compileAll_cons, hrest]
        rfl
      | reject =>
        -- nothing behind the node is compiled
        apply LogM.ext_run
        intro state
        rw [Visit.run_compileAll_meet_reject, Visit.run_compileAll_meet_reject]
    | none =>
      have halive := alive_iff_obstacle?.2 ho
      have hreached : treatment.reached (node :: rest) = node :: treatment.reached rest :=
        Treatment.reached_append (fun _ => List.forall_mem_singleton.2 halive) rest
      rw [hreached] at h
      cases halive with
      | and os => exact ih h
      | or os => exact ih h
      | comparison c path value =>
        obtain ⟨hpath, hrest⟩ := List.forall_mem_cons.1 h
        have hfield : resolveField p path = resolveField q path := by
          rw [resolveField, resolveField, hpath]
        have hvisits : (expression (.compare c) [.reference path, .literal value] ::
            rest).filterMap visit? = .ask c path value :: rest.filterMap visit? := rfl
        rw [hvisits, Visit.compileAll_cons, Visit.compileAll_cons, Visit.compile, Visit.compile,
          hfield, ih hrest]

/-- Compiling depends on a resolver only through the paths that it may be asked for. -/
theorem compile_congr_of_reached {treatment : Treatment} {p q : Resolver σ} {o : Operand}
    (h : ∀ path ∈ asked (treatment.reached o.nodes), p path = q path) :
    o.compile treatment p = o.compile treatment q := by
  rw [compile_eq_visits, compile_eq_visits, visits_eq_filterMap, compileAll_congr_of_reached h]

/-! ## The nodes before the end -/

/-- The nodes of a plan that compiling gets past: all of them if the plan has a filter, otherwise
those before the one with which it ends. -/
inductive GoesPast (treatment : Treatment) (resolver : Resolver σ) (o : Operand) (state : σ) :
    List Operand → Prop where
  | all {filter : Filter} (h : ((o.compile treatment resolver).run state).result = .ok filter) :
      GoesPast treatment resolver o state o.nodes
  | before {nodes : List Operand} {node : Operand} {e : CompileError}
      (h : ((o.compile treatment resolver).run state).result = .error e)
      (hends : EndsAt treatment resolver o.nodes state nodes node e) :
      GoesPast treatment resolver o state nodes

section

variable {treatment : Treatment} {resolver : Resolver σ} {o : Operand} {state : σ}
  {nodes : List Operand}

theorem exists_goesPast (treatment : Treatment) (resolver : Resolver σ) (o : Operand) (state : σ) :
    ∃ nodes, GoesPast treatment resolver o state nodes := by
  rcases passes_or_endsAt treatment resolver o.nodes state with h | ⟨nodes, node, e, h⟩
  · obtain ⟨filter, hfilter⟩ := result_compile_ok_iff.2 h
    exact ⟨o.nodes, .all hfilter⟩
  · exact ⟨nodes, .before (result_compile_error_iff.2 ⟨nodes, node, h⟩) h⟩

theorem GoesPast.passes (h : GoesPast treatment resolver o state nodes) :
    Passes treatment resolver nodes state := by
  cases h with
  | all h => exact result_compile_ok_iff.1 ⟨_, h⟩
  | before h hends => exact hends.passes

theorem GoesPast.exists_append (h : GoesPast treatment resolver o state nodes) :
    ∃ after, o.nodes = nodes ++ after := by
  cases h with
  | all h => exact ⟨[], (List.append_nil _).symm⟩
  | before h hends =>
    obtain ⟨after, hafter⟩ := hends.listed
    exact ⟨_, hafter⟩

end

/-! ## Two maps -/

section

variable {m : FieldMap} {treatment : Treatment} {o : Operand} {state : σ} {nodes : List Operand}
  {path : String}

/-- Over a map that is not strict, compiling ends only with a dead node. -/
theorem EndsAt.dead_of_not_strict (hm : m.strict = false) {node : Operand} {e : CompileError}
    (h : EndsAt treatment m.resolver o.nodes state nodes node e) :
    treatment = .reject ∧ node.Dead ∧ ∃ obstacle, e = .untranslatable obstacle := by
  rcases h.offends.dead_or_refused with ⟨ht, obstacle, ho, he⟩ |
    ⟨c, path, value, refusal, -, hrefused, -⟩
  · exact ⟨ht, dead_iff_obstacle?.2 ⟨obstacle, ho⟩, obstacle, he⟩
  · obtain ⟨field, hfield⟩ := FieldMap.exists_resolve hm path
    have hanswer : m.resolve path = .error refusal := hrefused
    rw [hfield] at hanswer
    cases hanswer

theorem GoesPast.reached (h : GoesPast treatment m.resolver o state nodes) (hm : m.strict = false) :
    treatment.reached o.nodes = nodes := by
  cases h with
  | all h => exact Treatment.reached_of_alive (result_compile_ok_iff.1 ⟨_, h⟩).alive
  | before h hends =>
    obtain ⟨rfl, hdead, -⟩ := hends.dead_of_not_strict hm
    obtain ⟨after, hafter⟩ := hends.listed
    rw [hafter, Treatment.reached_append hends.passes.alive,
      Treatment.reached_reject_cons_of_dead hdead, List.append_nil]

/-- If the map has fields for all comparisons that compiling gets past, strictness does not show. -/
theorem compile_toStrict (hm : m.strict = false) (h : GoesPast treatment m.resolver o state nodes)
    (hknown : ∀ path ∈ asked nodes, (m.get? path).isSome) :
    (o.compile treatment m.toStrict.resolver : LogM σ CompileError Filter) =
      o.compile treatment m.resolver := by
  apply compile_congr_of_reached
  rw [h.reached hm]
  intro path hpath
  funext state
  rw [FieldMap.resolver, FieldMap.resolver, Resolver.ofFunction, Resolver.ofFunction,
    FieldMap.resolve_toStrict_of_isSome (hknown path hpath)]

/-- Otherwise the first comparison that it has no field for is refused. -/
theorem result_compile_toStrict (h : GoesPast treatment m.resolver o state nodes)
    (hunknown : (asked nodes).find? (fun path => (m.get? path).isNone) = some path) :
    ((o.compile treatment m.toStrict.resolver).run state).result =
      .error (.resolver (.unmapped path)) := by
  rw [asked, List.find?_filterMap, Option.bind_eq_some_iff] at hunknown
  obtain ⟨node, hnode, hpath⟩ := hunknown
  obtain ⟨hnone, front, back, rfl, hfront⟩ := List.find?_eq_some_iff_append.1 hnode
  obtain ⟨c, value, rfl⟩ := asked?_eq_some_iff.1 hpath
  obtain ⟨after, hafter⟩ := h.exists_append
  have hpasses := (passes_append_iff.1 h.passes).1
  -- compiling gets as far as before, since the map has fields for the comparisons in front
  have hanswered : ∀ other ∈ asked front, ∃ field, m.toStrict.resolve other = .ok field := by
    intro other hother
    obtain ⟨node, hmem, hasked⟩ := List.mem_filterMap.1 hother
    have hsome : (m.get? other).isSome := by simpa [hasked] using hfront node hmem
    obtain ⟨field, hfield⟩ := Option.isSome_iff_exists.1 hsome
    exact ⟨field, FieldMap.resolve_of_get? hfield⟩
  refine result_compile_error_iff.2 ⟨front, _, ⟨back ++ after, ?_⟩, ⟨hpasses.alive, ?_⟩,
    .refused c path value (FieldMap.resolve_toStrict_of_isNone hnone)⟩
  · rw [hafter, List.append_assoc, List.cons_append]
  · exact Resolver.answersAll_ofFunction_iff.2 hanswered

/-- How a plan is compiled over a field map that is not strict, and over one that is strict but has
the same fields. -/
structure Tightened (m : FieldMap) (treatment : Treatment) (o : Operand) (state : σ)
    (loose strict : Outcome σ CompileError Filter) : Prop where
  /-- The map that is not strict refuses nothing. -/
  answers : ∀ refusal, loose.result ≠ .error (.resolver refusal)
  /-- There are nodes that compiling over it gets past. -/
  goesPast : ∃ nodes, GoesPast treatment m.resolver o state nodes
  /-- If it has fields for all comparisons among them, both leave the same. -/
  known : ∀ nodes, GoesPast treatment m.resolver o state nodes →
    (∀ path ∈ asked nodes, ∃ field, m.get? path = some field) →
      strict.result = loose.result ∧ strict.log = loose.log
  /-- Otherwise the strict map refuses the path of the first one that it has no field for. -/
  unknown : ∀ nodes, GoesPast treatment m.resolver o state nodes → ∀ path,
    (asked nodes).find? (fun path => (m.get? path).isNone) = some path →
      strict.result = .error (.resolver (.unmapped path))

theorem tightened_toStrict (hm : m.strict = false) (treatment : Treatment) (o : Operand)
    (state : σ) :
    Tightened m treatment o state ((o.compile treatment m.resolver).run state)
      ((o.compile treatment m.toStrict.resolver).run state) where
  answers refusal h := by
    obtain ⟨nodes, node, hends⟩ := result_compile_error_iff.1 h
    obtain ⟨-, -, obstacle, he⟩ := hends.dead_of_not_strict hm
    cases he
  goesPast := exists_goesPast treatment m.resolver o state
  known nodes h hknown := by
    rw [compile_toStrict hm h fun path hpath => Option.isSome_iff_exists.2 (hknown path hpath)]
    exact ⟨rfl, rfl⟩
  unknown nodes h path hunknown := result_compile_toStrict h hunknown

end

end Operand

/-! ## Configurations -/

theorem Config.fieldMap_eq_toStrict {c d : Config} (hfields : c.fieldNames = d.fieldNames)
    (hc : c.strictFieldNames = false) (hd : d.strictFieldNames = true) :
    d.fieldMap = c.fieldMap.toStrict := by
  simp [fieldMap, hfields, hc, hd]

/-- Strictness refuses paths without a field and changes nothing else, be it of a map or of a
configuration. -/
theorem strictness_refuses_unmapped :
    (∀ m : FieldMap, m.strict = false → ∀ (treatment : Treatment) (o : Operand) (state : σ),
      o.Tightened m treatment state ((o.compile treatment m.resolver).run state)
        ((o.compile treatment m.toStrict.resolver).run state)) ∧
    ∀ c d : Config, c.unknownOperators = d.unknownOperators → c.fieldNames = d.fieldNames →
      c.strictFieldNames = false → d.strictFieldNames = true → ∀ (o : Operand) (state : σ),
        o.Tightened c.fieldMap c.unknownOperators state
          ((o.compile c.unknownOperators c.fieldMap.resolver).run state)
          ((o.compile d.unknownOperators d.fieldMap.resolver).run state) := by
  refine ⟨fun m hm treatment o state => Operand.tightened_toStrict hm treatment o state, ?_⟩
  intro c d htreatment hfields hc hd o state
  rw [← htreatment, Config.fieldMap_eq_toStrict hfields hc hd]
  exact Operand.tightened_toStrict (c.strict_fieldMap.trans hc) c.unknownOperators o state

/-- A plan that is rejected for a dead node is refused for a path without a field before it. -/
theorem strictness_refuses_unmapped_before_dead :
    let loose : Config := ⟨.reject, .single "owner" "author", false⟩
    let strict : Config := { loose with strictFieldNames := true }
    let asking := fun path => Operand.comparison (.compare (.relate .equal)) path (.str "me")
    let o := Operand.expression .or [asking "owner", asking "name", .literal .null]
    let before := [o, asking "owner", asking "name"]
    o.GoesPast .reject loose.fieldMap.resolver () before ∧
      ((o.compile .reject loose.fieldMap.resolver).run ()).result =
        .error (.untranslatable .leaf) ∧
      ((o.compile .reject loose.fieldMap.toStrict.resolver).run ()).result =
        .error (.resolver (.unmapped "name")) ∧
      ((o.compile .reject strict.fieldMap.resolver).run ()).result =
        .error (.resolver (.unmapped "name")) := by
  intro loose strict asking o before
  have halive : ∀ node ∈ before, node.Alive := by
    simpa [before, asking, Operand.comparison] using
      ⟨Operand.Alive.or _, Operand.Alive.comparison _ _ _, Operand.Alive.comparison _ _ _⟩
  have hanswered : (loose.fieldMap.resolver : Resolver Unit).AnswersAll (Operand.asked before) () :=
    Resolver.answersAll_ofFunction_iff.2 fun path _ => FieldMap.exists_resolve rfl path
  -- the loose map answers for `name` too, and it is the literal that compiling ends with
  have hpast : o.GoesPast .reject loose.fieldMap.resolver () before :=
    .before rfl ⟨⟨[], rfl⟩, ⟨fun _ => halive, hanswered⟩, .malformed rfl (.literal .null) rfl⟩
  exact ⟨hpast, rfl,
    (strictness_refuses_unmapped.1 loose.fieldMap rfl .reject o ()).unknown before hpast "name" rfl,
    (strictness_refuses_unmapped.2 loose strict rfl rfl rfl rfl o ()).unknown before hpast "name"
      rfl⟩

end AccessPlan
