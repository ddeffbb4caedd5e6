import AccessPlan.Plan.Equality

/-!
# Canonical operands

An operand is read back from its JSON value unless it hides something in the wrong place: a known
tag in an operator that is kept as another one, or in an unrecognized node a value that is an
operand.

* `Operand.Canonical`: operands that hide nothing, at any depth.
* `Operand.ofJson_toJson_expression`: what an expression is read back as.
* `Operand.ofJson_toJson_of_canonical`, `Operand.canonical_of_same`: canonical operands are read
  back, and no others are.
* `Operand.canonical_ofJson`: whatever is read is canonical.
* `Operand.round_trips_iff_canonical`: all of this together.
-/

namespace AccessPlan

namespace Operand

/-- An operand without a known tag in an operator that is kept as another one, and without an
operand in an unrecognized node. This is asked of the operands of every expression. -/
inductive Canonical : Operand → Prop where
  | expression {operator : Operator} {operands : List Operand}
      (hoperator : ∀ tag, operator = .other tag → tag ∉ Operator.known.map Operator.tag)
      (hoperands : ∀ o ∈ operands, Canonical o) : Canonical (.expression operator operands)
  | reference (path : String) : Canonical (.reference path)
  | literal (value : Json) : Canonical (.literal value)
  | unrecognized {raw : Json} (hraw : ∃ kept, ofJson raw = .unrecognized kept) :
      Canonical (.unrecognized raw)

example : Operator.known.map Operator.tag =
    ["and", "or", "eq", "ne", "lt", "gt", "lte", "gte", "in"] := rfl

/-! ## Reading back -/

theorem toJson_expression (operator : Operator) (operands : List Operand) :
    (expression operator operands).toJson =
      .single "expression"
        (.ofMembers
          [("operator", .str operator.tag), ("operands", .arr (operands.map toJson))]) := by
  have hitems : Written.toItems (writtenAll operands) = operands.map toJson := by
    rw [writtenAll_eq_map, Written.toItems_eq_map, List.map_map]
    rfl
  rw [← hitems]
  rfl

theorem expressionOf_members (tag : String) (items : List Json) :
    expressionOf (.ofMembers [("operator", .str tag), ("operands", .arr items)]) =
      some (.ofTag tag, items.map ofJson) := by
  have hoperator :
      (Dict.ofList [("operator", .str tag), ("operands", .arr items)]).get? "operator" =
        some (Json.str tag) := by simp [Dict.get?_ofList, List.lookup_cons]
  have hoperands :
      (Dict.ofList [("operator", .str tag), ("operands", .arr items)]).get? "operands" =
        some (Json.arr items) := by simp [Dict.get?_ofList]
  rw [Json.ofMembers, expressionOf, operandsIn_eq, hoperator, hoperands]
  simp only [operandsOf, ofItems_eq_map]

theorem ofJson_single_expression {body : Json} {operator : Operator} {operands : List Operand}
    (h : expressionOf body = some (operator, operands)) :
    ofJson (.single "expression" body) = .expression operator operands := by
  have hin : expressionIn (Dict.single "expression" body) = some (expressionOf body) := rfl
  rw [Json.single, ofJson, hin, h]

/-- An expression is read back with the operator of its tag, and its operands one by one. -/
theorem ofJson_toJson_expression (operator : Operator) (operands : List Operand) :
    ofJson (expression operator operands).toJson =
      .expression (.ofTag operator.tag) (operands.map fun o => ofJson o.toJson) := by
  rw [toJson_expression, ofJson_single_expression (expressionOf_members _ _), List.map_map]
  rfl

theorem ofJson_toJson_reference (path : String) :
    ofJson (reference path).toJson = .reference path := rfl

theorem ofJson_toJson_literal (value : Json) : ofJson (literal value).toJson = .literal value := rfl

theorem ofJson_toJson_unrecognized (raw : Json) : ofJson (unrecognized raw).toJson = ofJson raw :=
  rfl

/-- What is not recognized is kept as it came. -/
theorem eq_of_ofJson_eq_unrecognized {raw kept : Json} (h : ofJson raw = .unrecognized kept) :
    kept = raw := by
  cases raw with
  | obj members =>
    rw [ofJson] at h
    split at h
    · cases h
    · exact (unrecognized.inj h).symm
    · split at h
      · cases h
      · split at h
        · cases h
        · exact (unrecognized.inj h).symm
  | _ => exact (unrecognized.inj h).symm

theorem ofJson_toJson_of_canonical {o : Operand} (h : o.Canonical) : ofJson o.toJson = o := by
  induction h with
  | @expression operator operands hoperator _ ih =>
    rw [ofJson_toJson_expression, (Operator.ofTag_tag_iff operator).2 hoperator]
    rw [List.map_congr_left ih, List.map_id']
  | reference path => exact ofJson_toJson_reference path
  | literal value => exact ofJson_toJson_literal value
  | unrecognized hraw =>
    obtain ⟨kept, hkept⟩ := hraw
    rw [ofJson_toJson_unrecognized, hkept, eq_of_ofJson_eq_unrecognized hkept]

/-! ## Only canonical operands are read back -/

mutual

/-- An operand that is read back up to equality as JSON is canonical. -/
theorem canonical_of_same : (o : Operand) → (ofJson o.toJson).same o = true → o.Canonical
  | .expression operator operands, h => by
    rw [ofJson_toJson_expression, same, agree, Bool.and_eq_true, beq_iff_eq] at h
    exact .expression ((Operator.ofTag_tag_iff operator).1 h.1) (canonicalAll_of_same operands h.2)
  | .reference path, _ => .reference path
  | .literal value, _ => .literal value
  | .unrecognized raw, h => by
    rw [ofJson_toJson_unrecognized] at h
    -- an operand in it would come out of the node, and would not be the same
    cases hraw : ofJson raw with
    | unrecognized kept => exact .unrecognized ⟨kept, hraw⟩
    | _ => simp [hraw, same, agree] at h

theorem canonicalAll_of_same : (os : List Operand) →
    agreeAll Number.same (os.map fun o => ofJson o.toJson) os = true → ∀ o ∈ os, o.Canonical
  | [], _ => by simp
  | o :: rest, h => by
    rw [List.map_cons, agreeAll, Bool.and_eq_true] at h
    exact List.forall_mem_cons.2 ⟨canonical_of_same o h.1, canonicalAll_of_same rest h.2⟩

end

/-! ## Whatever is read is canonical -/

theorem not_mem_known_of_ofTag {tag known : String} (h : Operator.ofTag known = .other tag) :
    tag ∉ Operator.known.map Operator.tag := by
  have htag : (Operator.other tag).tag = known := h ▸ Operator.tag_ofTag known
  -- a tag that is known would be read as its operator, but this one is kept
  have hread : Operator.ofTag (Operator.other tag).tag = .other tag := by rw [htag, h]
  exact (Operator.ofTag_tag_iff _).1 hread tag rfl

theorem expressionIn_of_ofJson {members : Entries Json none} {operator : Operator}
    {operands : List Operand} (h : ofJson (.obj members) = .expression operator operands) :
    expressionIn members = some (some (operator, operands)) := by
  rw [ofJson] at h
  split at h
  · rename_i hin
    obtain ⟨rfl, rfl⟩ := expression.inj h
    exact hin
  · cases h
  · split at h
    · cases h
    · split at h <;> cases h

mutual

/-- The operand that a value stands for is canonical. -/
theorem canonical_ofJson : (j : Json) → (ofJson j).Canonical
  | .null => .unrecognized ⟨_, rfl⟩
  | .bool _ => .unrecognized ⟨_, rfl⟩
  | .num _ => .unrecognized ⟨_, rfl⟩
  | .str _ => .unrecognized ⟨_, rfl⟩
  | .arr _ => .unrecognized ⟨_, rfl⟩
  | .obj members => by
    cases h : ofJson (.obj members) with
    | expression operator operands =>
      exact canonical_expressionIn members (expressionIn_of_ofJson h)
    | reference path => exact .reference path
    | literal value => exact .literal value
    | unrecognized kept =>
      obtain rfl := eq_of_ofJson_eq_unrecognized h
      exact .unrecognized ⟨_, h⟩

theorem canonical_expressionIn : {bound : Option String} → (members : Entries Json bound) →
    {operator : Operator} → {operands : List Operand} →
      expressionIn members = some (some (operator, operands)) →
        (expression operator operands).Canonical
  | _, .nil, _, _, h => nomatch h
  | _, .cons key _ value rest, _, _, h => by
    rw [expressionIn] at h
    split at h
    · exact canonical_expressionOf value (Option.some.inj h)
    · exact canonical_expressionIn rest h

theorem canonical_expressionOf : (j : Json) → {operator : Operator} → {operands : List Operand} →
    expressionOf j = some (operator, operands) → (expression operator operands).Canonical
  | .obj body, _, _, h => by
    rw [expressionOf] at h
    split at h
    · rename_i hoperands
      obtain ⟨rfl, rfl⟩ := Prod.mk.inj (Option.some.inj h)
      exact .expression (fun tag htag => not_mem_known_of_ofTag htag)
        (canonical_operandsIn body hoperands)
    · cases h
  | .null, _, _, h => nomatch h
  | .bool _, _, _, h => nomatch h
  | .num _, _, _, h => nomatch h
  | .str _, _, _, h => nomatch h
  | .arr _, _, _, h => nomatch h

theorem canonical_operandsIn : {bound : Option String} → (members : Entries Json bound) →
    {operands : List Operand} → operandsIn members = some operands → ∀ o ∈ operands, o.Canonical
  | _, .nil, _, h => by
    obtain rfl := Option.some.inj h
    simp
  | _, .cons key _ value rest, _, h => by
    rw [operandsIn] at h
    split at h
    · exact canonical_operandsOf value h
    · exact canonical_operandsIn rest h

theorem canonical_operandsOf : (j : Json) → {operands : List Operand} →
    operandsOf j = some operands → ∀ o ∈ operands, o.Canonical
  | .arr items, _, h => by
    obtain rfl := Option.some.inj h
    exact canonical_ofItems items
  | .null, _, h => nomatch h
  | .bool _, _, h => nomatch h
  | .num _, _, h => nomatch h
  | .str _, _, h => nomatch h
  | .obj _, _, h => nomatch h

theorem canonical_ofItems : (items : List Json) → ∀ o ∈ ofItems items, o.Canonical
  | [] => by simp [ofItems]
  | item :: rest => List.forall_mem_cons.2 ⟨canonical_ofJson item, canonical_ofItems rest⟩

end

/-! ## The round trip -/

/-- The canonical operands are the ones that are read back from their JSON value, be it exactly or
up to equality as JSON, and they are the ones that are read from a value at all. So reading, writing
and reading again is reading once. -/
theorem round_trips_iff_canonical :
    (∀ o : Operand, (ofJson o.toJson = o ↔ o.Canonical) ∧
      ((ofJson o.toJson).same o = true ↔ o.Canonical) ∧ (o.Canonical ↔ ∃ raw, ofJson raw = o)) ∧
    ∀ raw, ofJson (ofJson raw).toJson = ofJson raw := by
  have hsame : ∀ o : Operand, o.Canonical → (ofJson o.toJson).same o = true := by
    intro o h
    rw [ofJson_toJson_of_canonical h, same_self]
  refine ⟨fun o => ⟨⟨fun h => ?_, ofJson_toJson_of_canonical⟩, ⟨canonical_of_same o, hsame o⟩,
    fun h => ⟨o.toJson, ofJson_toJson_of_canonical h⟩, ?_⟩, fun raw => ?_⟩
  · exact h ▸ canonical_ofJson o.toJson
  · rintro ⟨raw, rfl⟩
    exact canonical_ofJson raw
  · exact ofJson_toJson_of_canonical (canonical_ofJson raw)

end Operand

end AccessPlan
