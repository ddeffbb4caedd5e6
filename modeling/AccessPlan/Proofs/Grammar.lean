import AccessPlan.Proofs.Canonical

/-!
# The grammar of operands

The shapes of the values that are read as expressions, literals and references are stated here as
rules, and reading is held against them. A value that none of the rules takes is kept as it came,
wherever in a plan it stands.

* `Json.IsExpression`, `Json.IsLiteral`, `Json.IsReference`: the rules.
* `Json.place?`: the value that stands at a position, as a pointer finds it. `Json.Visits`: the
  values that are read, one at a position.
* `Json.Plain`: a value with no member that reading leaves out.
* `Operand.ofJson_eq_expression_iff` and its siblings: reading follows the rules.
* `Operand.descendant?_ofJson_iff`: what is read at a position is what stands there.
* `Operand.plain_of_agree`, `Operand.toJson_ofJson_of_plain`: a value is written back as it was
  exactly if all that is visited is plain.
* `Operand.classifies_by_grammar`: all of this together.
-/

namespace AccessPlan

namespace Json

/-! ## The rules -/

/-- The body of an expression with the tag and the items: an object with a string `operator`, and
with an array as `operands` or without `operands`. -/
inductive IsBody : Json → String → List Json → Prop where
  | bare {body : Dict Json} {tag : String} (hoperator : body.get? "operator" = some (.str tag))
      (hoperands : body.get? "operands" = none) : IsBody (.obj body) tag []
  | full {body : Dict Json} {tag : String} {items : List Json}
      (hoperator : body.get? "operator" = some (.str tag))
      (hoperands : body.get? "operands" = some (.arr items)) : IsBody (.obj body) tag items

/-- An expression: an object with the body of one as `expression`. -/
inductive IsExpression : Json → String → List Json → Prop where
  | mk {members : Dict Json} {body : Json} {tag : String} {items : List Json}
      (hmember : members.get? "expression" = some body) (hbody : body.IsBody tag items) :
      IsExpression (.obj members) tag items

/-- A literal: an object with a `value` and without `expression`. -/
inductive IsLiteral : Json → Json → Prop where
  | mk {members : Dict Json} {value : Json} (hexpression : members.get? "expression" = none)
      (hvalue : members.get? "value" = some value) : IsLiteral (.obj members) value

/-- A reference: an object with a string `variable` and without `expression` and `value`. -/
inductive IsReference : Json → String → Prop where
  | mk {members : Dict Json} {path : String} (hexpression : members.get? "expression" = none)
      (hvalue : members.get? "value" = none)
      (hvariable : members.get? "variable" = some (.str path)) : IsReference (.obj members) path

/-! ## Places -/

/-- The item of an array at an index. -/
def item? (index : Nat) : Json → Option Json
  | .arr items => items[index]?
  | _ => none

/-- The value that stands at a position: each step leads through the members `expression` and
`operands` to an item. -/
def place? : Json → List Nat → Option Json
  | raw, [] => some raw
  | raw, index :: rest => do
    let body ← raw.member? "expression"
    let operands ← body.member? "operands"
    let item ← operands.item? index
    item.place? rest

/-- A value that is read at a position: the whole, or one that is read within an item of an
expression. -/
inductive Visits : Json → List Nat → Json → Prop where
  | here (raw : Json) : Visits raw [] raw
  | within {raw : Json} {tag : String} {items : List Json} {index : Nat} {item : Json}
      {rest : List Nat} {found : Json} (hraw : raw.IsExpression tag items)
      (hitem : items[index]? = some item) (hrest : Visits item rest found) :
      Visits raw (index :: rest) found

/-- What is read at a position stands there. -/
theorem Visits.place? {raw found : Json} {position : List Nat} (h : Visits raw position found) :
    raw.place? position = some found := by
  induction h with
  | here raw => rfl
  | within hraw hitem _ ih =>
    obtain ⟨hmember, hbody⟩ := hraw
    cases hbody with
    | bare hoperator hoperands => cases hitem
    | full hoperator hoperands =>
      simp [Json.place?, member?, item?, hmember, hoperands, hitem, ih]

/-! ## Plain values -/

/-- An object with these members and no other. -/
def HasExactly (keys : List String) (j : Json) : Prop :=
  ∃ members, j = .obj members ∧ ∀ key, key ∈ members.keys ↔ key ∈ keys

/-- A value with no member that reading leaves out: beside the member that makes it what it is there
is no other, and in the body of an expression there are the operator and the operands. -/
structure Plain (found : Json) : Prop where
  expression : ∀ tag items, found.IsExpression tag items → found.HasExactly ["expression"] ∧
    ∃ body, found.member? "expression" = some body ∧ body.HasExactly ["operator", "operands"]
  literal : ∀ value, found.IsLiteral value → found.HasExactly ["value"]
  reference : ∀ path, found.IsReference path → found.HasExactly ["variable"]

theorem member?_ofMembers (pairs : List (String × Json)) (key : String) :
    (ofMembers pairs).member? key = pairs.reverse.lookup key :=
  Dict.get?_ofList pairs key

theorem hasExactly_ofMembers (pairs : List (String × Json)) :
    (ofMembers pairs).HasExactly (pairs.map Prod.fst) := by
  refine ⟨Dict.ofList pairs, rfl, fun key => ?_⟩
  rw [Entries.mem_keys_iff, Dict.get?_ofList, List.lookup_isSome_iff]
  simp only [List.mem_reverse, List.mem_map, beq_iff_eq, eq_comm (a := key)]

/-- An object is determined by its keys and the values at them. -/
theorem eq_ofMembers (pairs : List (String × Json)) {j : Json}
    (hkeys : j.HasExactly (pairs.map Prod.fst))
    (hvalues : ∀ key ∈ pairs.map Prod.fst, j.member? key = pairs.reverse.lookup key) :
    j = ofMembers pairs := by
  obtain ⟨members, rfl, hmembers⟩ := hkeys
  obtain ⟨_, ⟨⟩, hpairs⟩ := hasExactly_ofMembers pairs
  refine congrArg obj (Entries.ext_get? fun key => ?_)
  by_cases hkey : key ∈ pairs.map Prod.fst
  · rw [Dict.get?_ofList]
    exact hvalues key hkey
  · -- no value of the pairs tells what a key outside them is given, but neither object has it
    have hnone : ∀ {entries : Dict Json}, (∀ key, key ∈ entries.keys ↔ key ∈ pairs.map Prod.fst) →
        entries.get? key = none := by
      intro entries hentries
      rw [← Option.not_isSome_iff_eq_none, ← Entries.mem_keys_iff, hentries]
      exact hkey
    rw [hnone hmembers, hnone hpairs]

/-! ## What agrees has the same parts -/

section

variable {number : Number → Number → Bool}

theorem keys_eq_of_agreeMembers {low high : Option String} (a : Entries Json low)
    (b : Entries Json high) (h : agreeMembers number a b = true) : a.keys = b.keys := by
  induction a generalizing high with
  | nil =>
    cases b with
    | nil => rfl
    | cons => simp [agreeMembers] at h
  | cons key above value rest ih =>
    cases b with
    | nil => simp [agreeMembers] at h
    | cons key' above' value' rest' =>
      simp only [agreeMembers, Bool.and_eq_true, beq_iff_eq] at h
      obtain ⟨⟨rfl, -⟩, hrest⟩ := h
      rw [Entries.keys, Entries.keys, ih rest' hrest]

theorem get?_of_agreeMembers {low high : Option String} (a : Entries Json low)
    (b : Entries Json high) (h : agreeMembers number a b = true) {key : String} {x : Json}
    (hx : a.get? key = some x) : ∃ y, b.get? key = some y ∧ x.agree number y = true := by
  induction a generalizing high with
  | nil => cases hx
  | cons key' above value rest ih =>
    cases b with
    | nil => simp [agreeMembers] at h
    | cons key'' above' value' rest' =>
      simp only [agreeMembers, Bool.and_eq_true, beq_iff_eq] at h
      obtain ⟨⟨rfl, hvalue⟩, hrest⟩ := h
      rw [Entries.get?_cons] at hx ⊢
      split at hx
      · obtain rfl := Option.some.inj hx
        exact ⟨value', by simp [*], hvalue⟩
      · rename_i hne
        rw [if_neg hne]
        exact ih rest' hrest hx

theorem getElem?_of_agreeItems {as bs : List Json} (h : agreeItems number as bs = true)
    {index : Nat} {x y : Json} (hx : as[index]? = some x) (hy : bs[index]? = some y) :
    x.agree number y = true := by
  induction as generalizing bs index with
  | nil => simp at hx
  | cons a as ih =>
    cases bs with
    | nil => simp at hy
    | cons b bs =>
      rw [agreeItems, Bool.and_eq_true] at h
      cases index with
      | zero => simp_all
      | succ index => exact ih h.2 (by simpa using hx) (by simpa using hy)

theorem member?_of_agree {a b : Json} (h : a.agree number b = true) {key : String} {x : Json}
    (hx : a.member? key = some x) : ∃ y, b.member? key = some y ∧ x.agree number y = true := by
  cases a with
  | obj as =>
    cases b with
    | obj bs => exact get?_of_agreeMembers as bs h hx
    | _ => simp [agree] at h
  | _ => cases hx

theorem hasExactly_of_agree (pairs : List (String × Json)) {j : Json}
    (h : (ofMembers pairs).agree number j = true) : j.HasExactly (pairs.map Prod.fst) := by
  cases j with
  | obj members =>
    obtain ⟨_, ⟨⟩, hkeys⟩ := hasExactly_ofMembers pairs
    have hsame := keys_eq_of_agreeMembers (Dict.ofList pairs) members h
    exact ⟨members, rfl, fun key => hsame ▸ hkeys key⟩
  | _ => simp [ofMembers, agree] at h

end

/-! ## Induction along the items of expressions -/

theorem sizeOf_get?_lt {bound : Option String} {entries : Entries Json bound} {key : String}
    {value : Json} (h : entries.get? key = some value) : sizeOf value < sizeOf entries := by
  induction entries with
  | nil => cases h
  | cons key' above value' rest ih =>
    rw [Entries.get?_cons] at h
    rw [Entries.cons.sizeOf_spec]
    split at h
    · obtain rfl := Option.some.inj h
      omega
    · have hrest := ih h
      omega

theorem IsExpression.sizeOf_lt {raw : Json} {tag : String} {items : List Json}
    (h : raw.IsExpression tag items) {item : Json} (hitem : item ∈ items) :
    sizeOf item < sizeOf raw := by
  obtain ⟨hmember, hbody⟩ := h
  cases hbody with
  | bare => cases hitem
  | full hoperator hoperands =>
    have hbody := sizeOf_get?_lt hmember
    have hitems := sizeOf_get?_lt hoperands
    have hlt := List.sizeOf_lt_of_mem hitem
    rw [obj.sizeOf_spec] at hbody ⊢
    rw [arr.sizeOf_spec] at hitems
    omega

end Json

namespace Operand

/-! ## Reading follows the rules -/

theorem operandsOf_eq_some_iff {j : Json} {operands : List Operand} :
    operandsOf j = some operands ↔ ∃ items, j = .arr items ∧ operands = items.map ofJson := by
  cases j <;> simp [operandsOf, ofItems_eq_map, eq_comm]

theorem expressionOf_eq_some_iff {body : Json} {operator : Operator} {operands : List Operand} :
    expressionOf body = some (operator, operands) ↔
      ∃ tag items, body.IsBody tag items ∧ operator = .ofTag tag ∧ operands = items.map ofJson := by
  constructor
  · intro h
    cases body with
    | obj members =>
      rw [expressionOf] at h
      split at h
      · rename_i tag _ hoperator hoperands
        obtain ⟨rfl, rfl⟩ := Prod.mk.inj (Option.some.inj h)
        rw [operandsIn_eq] at hoperands
        split at hoperands
        · -- there are no `operands`, which is read as an empty list of them
          rename_i hnone
          obtain rfl := Option.some.inj hoperands
          exact ⟨tag, [], .bare hoperator hnone, rfl, rfl⟩
        · rename_i hsome
          obtain ⟨items, rfl, rfl⟩ := operandsOf_eq_some_iff.1 hoperands
          exact ⟨tag, items, .full hoperator hsome, rfl, rfl⟩
      · cases h
    | _ => cases h
  · rintro ⟨tag, items, hbody, rfl, rfl⟩
    cases hbody with
    | bare hoperator hoperands => simp [expressionOf, operandsIn_eq, hoperator, hoperands]
    | full hoperator hoperands =>
      simp [expressionOf, operandsIn_eq, operandsOf, ofItems_eq_map, hoperator, hoperands]

theorem ofJson_eq_expression_iff {raw : Json} {operator : Operator} {operands : List Operand} :
    ofJson raw = .expression operator operands ↔
      ∃ tag items, raw.IsExpression tag items ∧ operator = .ofTag tag ∧
        operands = items.map ofJson := by
  constructor
  · intro h
    cases raw with
    | obj members =>
      have hin := expressionIn_of_ofJson h
      rw [expressionIn_eq, Option.map_eq_some_iff] at hin
      obtain ⟨body, hmember, hbody⟩ := hin
      obtain ⟨tag, items, hbody, hoperator, hoperands⟩ := expressionOf_eq_some_iff.1 hbody
      exact ⟨tag, items, ⟨hmember, hbody⟩, hoperator, hoperands⟩
    | _ => cases h
  · rintro ⟨tag, items, ⟨hmember, hbody⟩, rfl, rfl⟩
    have hexpression := expressionOf_eq_some_iff.2 ⟨tag, items, hbody, rfl, rfl⟩
    simp [ofJson_obj, hmember, hexpression]

theorem ofJson_eq_literal_iff {raw value : Json} :
    ofJson raw = .literal value ↔ raw.IsLiteral value := by
  constructor
  · intro h
    cases raw with
    | obj members =>
      rw [ofJson_obj] at h
      split at h
      · split at h <;> cases h
      · rename_i hexpression hvalue
        obtain rfl := literal.inj h
        exact ⟨hexpression, hvalue⟩
      · cases h
      · cases h
    | _ => cases h
  · rintro ⟨hexpression, hvalue⟩
    simp [ofJson_obj, hexpression, hvalue]

theorem ofJson_eq_reference_iff {raw : Json} {path : String} :
    ofJson raw = .reference path ↔ raw.IsReference path := by
  constructor
  · intro h
    cases raw with
    | obj members =>
      rw [ofJson_obj] at h
      split at h
      · split at h <;> cases h
      · cases h
      · rename_i hexpression hvalue hvariable
        obtain rfl := reference.inj h
        exact ⟨hexpression, hvalue, hvariable⟩
      · cases h
    | _ => cases h
  · rintro ⟨hexpression, hvalue, hvariable⟩
    simp [ofJson_obj, hexpression, hvalue, hvariable]

/-- What none of the rules takes is not recognized and kept as it came. -/
theorem ofJson_eq_unrecognized_iff {raw kept : Json} :
    ofJson raw = .unrecognized kept ↔ kept = raw ∧ (∀ tag items, ¬raw.IsExpression tag items) ∧
      (∀ value, ¬raw.IsLiteral value) ∧ ∀ path, ¬raw.IsReference path := by
  constructor
  · intro h
    refine ⟨eq_of_ofJson_eq_unrecognized h, fun tag items he => ?_, fun value hv => ?_,
      fun path hp => ?_⟩
    · rw [ofJson_eq_expression_iff.2 ⟨tag, items, he, rfl, rfl⟩] at h
      cases h
    · rw [ofJson_eq_literal_iff.2 hv] at h
      cases h
    · rw [ofJson_eq_reference_iff.2 hp] at h
      cases h
  · rintro ⟨rfl, hexpression, hliteral, hreference⟩
    cases h : ofJson kept with
    | expression operator operands =>
      obtain ⟨tag, items, he, -, -⟩ := ofJson_eq_expression_iff.1 h
      exact absurd he (hexpression tag items)
    | literal value => exact absurd (ofJson_eq_literal_iff.1 h) (hliteral value)
    | reference path => exact absurd (ofJson_eq_reference_iff.1 h) (hreference path)
    | unrecognized raw => rw [eq_of_ofJson_eq_unrecognized h]

example : ofJson (.ofMembers [("expression", .null), ("value", .bool true)]) =
    .unrecognized (.ofMembers [("expression", .null), ("value", .bool true)]) := rfl

/-! ## What is read at a position -/

/-- The operands of an expression. -/
def operands : Operand → List Operand
  | .expression _ operands => operands
  | _ => []

/-- The operand at a position, going through the operands of every expression. -/
def descendant? : Operand → List Nat → Option Operand
  | o, [] => some o
  | o, index :: rest => do (← o.operands[index]?).descendant? rest

theorem operands_ofJson {raw : Json} {tag : String} {items : List Json}
    (h : raw.IsExpression tag items) : (ofJson raw).operands = items.map ofJson := by
  rw [ofJson_eq_expression_iff.2 ⟨tag, items, h, rfl, rfl⟩, operands]

/-- The operand that is read at an index is read from an item there. -/
theorem operands_ofJson_eq_some_iff {raw : Json} {index : Nat} {o : Operand} :
    (ofJson raw).operands[index]? = some o ↔
      ∃ tag items item, raw.IsExpression tag items ∧ items[index]? = some item ∧
        ofJson item = o := by
  constructor
  · intro h
    cases hraw : ofJson raw with
    | expression operator operands =>
      obtain ⟨tag, items, he, -, -⟩ := ofJson_eq_expression_iff.1 hraw
      rw [operands_ofJson he, List.getElem?_map, Option.map_eq_some_iff] at h
      obtain ⟨item, hitem, ho⟩ := h
      exact ⟨tag, items, item, he, hitem, ho⟩
    | _ => simp [hraw, operands] at h
  · rintro ⟨tag, items, item, he, hitem, rfl⟩
    rw [operands_ofJson he, List.getElem?_map, hitem, Option.map_some]

/-- What is read at a position is what the value that stands there is read as. -/
theorem descendant?_ofJson_iff {raw : Json} {position : List Nat} {o : Operand} :
    (ofJson raw).descendant? position = some o ↔
      ∃ found, raw.Visits position found ∧ ofJson found = o := by
  induction position generalizing raw with
  | nil =>
    constructor
    · intro h
      exact ⟨raw, .here raw, Option.some.inj h⟩
    · rintro ⟨found, ⟨⟩, rfl⟩
      rfl
  | cons index rest ih =>
    rw [descendant?, Option.bind_eq_bind, Option.bind_eq_some_iff]
    constructor
    · rintro ⟨child, hchild, ho⟩
      obtain ⟨tag, items, item, hraw, hitem, rfl⟩ := operands_ofJson_eq_some_iff.1 hchild
      obtain ⟨found, hfound, ho⟩ := ih.1 ho
      exact ⟨found, .within hraw hitem hfound, ho⟩
    · rintro ⟨found, hfound, rfl⟩
      cases hfound with
      | within hraw hitem hrest =>
        exact ⟨_, operands_ofJson_eq_some_iff.2 ⟨_, _, _, hraw, hitem, rfl⟩, ih.2 ⟨_, hrest, rfl⟩⟩

/-- What is not recognized in a plan is what stands there. -/
theorem place?_of_unrecognized {raw kept : Json} {position : List Nat}
    (h : (ofJson raw).descendant? position = some (.unrecognized kept)) :
    raw.place? position = some kept := by
  obtain ⟨found, hfound, hkept⟩ := descendant?_ofJson_iff.1 h
  obtain rfl := eq_of_ofJson_eq_unrecognized hkept
  exact hfound.place?

/-! ## Writing back -/

/-- An expression with the tag and the items, and with nothing else in it. -/
def plainExpression (tag : String) (items : List Json) : Json :=
  .ofMembers [("expression", .ofMembers [("operator", .str tag), ("operands", .arr items)])]

section

variable {number : Number → Number → Bool} {raw : Json} {tag : String} {items : List Json}

theorem toJson_ofJson_of_isExpression (h : raw.IsExpression tag items) :
    (ofJson raw).toJson = plainExpression tag (items.map fun item => (ofJson item).toJson) := by
  rw [ofJson_eq_expression_iff.2 ⟨tag, items, h, rfl, rfl⟩, toJson_expression, Operator.tag_ofTag,
    List.map_map]
  rfl

/-- What agrees with an expression has a body that agrees with its body. -/
theorem body_of_agree (h : (plainExpression tag items).agree number raw = true) :
    ∃ body, raw.member? "expression" = some body ∧
      (Json.ofMembers [("operator", .str tag), ("operands", .arr items)]).agree number body =
        true :=
  Json.member?_of_agree h (Json.member?_ofMembers _ _)

/-- A value that is written back as it was is plain. -/
theorem plain_of_agree (h : (ofJson raw).toJson.agree number raw = true) : raw.Plain where
  expression tag items he := by
    rw [toJson_ofJson_of_isExpression he] at h
    obtain ⟨body, hmember, hbody⟩ := body_of_agree h
    exact ⟨Json.hasExactly_of_agree _ h, body, hmember, Json.hasExactly_of_agree _ hbody⟩
  literal value hv := by
    rw [ofJson_eq_literal_iff.2 hv] at h
    exact Json.hasExactly_of_agree [("value", value)] h
  reference path hp := by
    rw [ofJson_eq_reference_iff.2 hp] at h
    exact Json.hasExactly_of_agree [("variable", .str path)] h

/-- The items of an expression that is written back as it was are written back as they were. -/
theorem agree_item (h : (ofJson raw).toJson.agree number raw = true)
    (hraw : raw.IsExpression tag items) {index : Nat} {item : Json}
    (hitem : items[index]? = some item) : (ofJson item).toJson.agree number item = true := by
  rw [toJson_ofJson_of_isExpression hraw] at h
  obtain ⟨body, hmember, hbody⟩ := body_of_agree h
  obtain ⟨hmember', hbody'⟩ := hraw
  -- the body that is read and the one that agrees are both what stands under `expression`
  obtain rfl : body = _ := Option.some.inj (hmember.symm.trans hmember')
  cases hbody' with
  | bare => cases hitem
  | full hoperator hoperands =>
    obtain ⟨operands, hoperands', hitems⟩ :=
      Json.member?_of_agree hbody (Json.member?_ofMembers _ "operands")
    obtain rfl : operands = _ := Option.some.inj (hoperands'.symm.trans hoperands)
    exact Json.getElem?_of_agreeItems hitems (by simp [hitem]) hitem

/-- So whatever is visited in it is plain. -/
theorem plain_of_visits {found : Json} {position : List Nat} (hvisits : raw.Visits position found)
    (h : (ofJson raw).toJson.agree number raw = true) : found.Plain := by
  induction hvisits with
  | here raw => exact plain_of_agree h
  | within hraw hitem _ ih => exact ih (agree_item h hraw hitem)

end

theorem eq_plainExpression {raw : Json} {tag : String} {items : List Json}
    (h : raw.IsExpression tag items) (hplain : raw.Plain) : raw = plainExpression tag items := by
  obtain ⟨hexpression, body, hmember, hbody⟩ := hplain.expression tag items h
  obtain ⟨hmember', hbody'⟩ := h
  obtain rfl : body = _ := Option.some.inj (hmember.symm.trans hmember')
  cases hbody' with
  | bare hoperator hoperands =>
    -- a plain body has `operands`, against the rule that was used
    obtain ⟨_, ⟨⟩, hkeys⟩ := hbody
    have hmem := (hkeys "operands").2 (by simp)
    rw [Entries.mem_keys_iff, hoperands] at hmem
    cases hmem
  | full hoperator hoperands =>
    have hfull := Json.eq_ofMembers [("operator", .str tag), ("operands", .arr items)] hbody
      (by simp [Json.member?, List.lookup_cons, hoperator, hoperands])
    exact Json.eq_ofMembers [("expression", _)] hexpression (by simp [hmember, hfull])

/-- A value in which all that is visited is plain is written back as it was. -/
theorem toJson_ofJson_of_plain (raw : Json)
    (h : ∀ position found, raw.Visits position found → found.Plain) :
    (ofJson raw).toJson = raw := by
  have hplain := h [] raw (.here raw)
  cases hraw : ofJson raw with
  | expression operator operands =>
    obtain ⟨tag, items, he, -, -⟩ := ofJson_eq_expression_iff.1 hraw
    have hitems : ∀ item ∈ items, (ofJson item).toJson = item := by
      intro item hitem
      -- a rule takes items out of the value, so that they are smaller
      have hlt := he.sizeOf_lt hitem
      obtain ⟨index, hindex⟩ := List.mem_iff_getElem?.1 hitem
      exact toJson_ofJson_of_plain item fun position found hfound =>
        h _ found (.within he hindex hfound)
    rw [← hraw, toJson_ofJson_of_isExpression he, List.map_congr_left hitems, List.map_id']
    exact (eq_plainExpression he hplain).symm
  | literal value =>
    have hliteral := ofJson_eq_literal_iff.1 hraw
    have hkeys := hplain.literal value hliteral
    obtain ⟨-, hvalue⟩ := hliteral
    exact (Json.eq_ofMembers [("value", value)] hkeys (by simp [Json.member?, hvalue])).symm
  | reference path =>
    have hreference := ofJson_eq_reference_iff.1 hraw
    have hkeys := hplain.reference path hreference
    obtain ⟨-, -, hvariable⟩ := hreference
    exact (Json.eq_ofMembers [("variable", .str path)] hkeys
      (by simp [Json.member?, hvariable])).symm
  | unrecognized kept => exact eq_of_ofJson_eq_unrecognized hraw
termination_by sizeOf raw

theorem toJson_ofJson_eq_iff (raw : Json) :
    (ofJson raw).toJson = raw ↔ ∀ position found, raw.Visits position found → found.Plain :=
  ⟨fun h _ _ hvisits => plain_of_visits hvisits ((Json.agree_iff_eq _ _).2 h),
    toJson_ofJson_of_plain raw⟩

theorem toJson_ofJson_same_iff (raw : Json) :
    (ofJson raw).toJson.same raw = true ↔
      ∀ position found, raw.Visits position found → found.Plain := by
  constructor
  · intro h position found hvisits
    exact plain_of_visits hvisits h
  · intro h
    rw [toJson_ofJson_of_plain raw h, Json.same_self]

/-! ## The grammar -/

/-- What becomes of a value that is read as an operand. -/
structure Classified (raw : Json) : Prop where
  /-- It is an expression if it has the shape of one, over what its items are read as. -/
  expression : ∀ operator operands, ofJson raw = .expression operator operands ↔
    ∃ tag items, raw.IsExpression tag items ∧ operator = .ofTag tag ∧ operands = items.map ofJson
  /-- It is a literal if it has the shape of one. -/
  literal : ∀ value, ofJson raw = .literal value ↔ raw.IsLiteral value
  /-- It is a reference if it has the shape of one. -/
  reference : ∀ path, ofJson raw = .reference path ↔ raw.IsReference path
  /-- Otherwise it is kept. -/
  unrecognized : ∀ kept, ofJson raw = .unrecognized kept ↔
    kept = raw ∧ (∀ tag items, ¬raw.IsExpression tag items) ∧ (∀ value, ¬raw.IsLiteral value) ∧
      ∀ path, ¬raw.IsReference path
  /-- Further down, each operand is what the value that is visited there is read as. -/
  within : ∀ position o, (ofJson raw).descendant? position = some o ↔
    ∃ found, raw.Visits position found ∧ ofJson found = o
  /-- What is not recognized, however deep, is what stands there. -/
  kept : ∀ position kept, (ofJson raw).descendant? position = some (.unrecognized kept) →
    raw.place? position = some kept
  /-- It is written back as it was exactly if no value that is visited has a member that reading
  leaves out. -/
  lossless : (ofJson raw).toJson = raw ↔
    ∀ position found, raw.Visits position found → found.Plain
  /-- Likewise up to equality as JSON. -/
  losslessAsJson : (ofJson raw).toJson.same raw = true ↔
    ∀ position found, raw.Visits position found → found.Plain

/-- Every value is read by the rules, with what they do not take kept as it came, and only what they
leave out is lost. -/
theorem classifies_by_grammar (raw : Json) : Classified raw where
  expression _ _ := ofJson_eq_expression_iff
  literal _ := ofJson_eq_literal_iff
  reference _ := ofJson_eq_reference_iff
  unrecognized _ := ofJson_eq_unrecognized_iff
  within _ _ := descendant?_ofJson_iff
  kept _ _ := place?_of_unrecognized
  lossless := toJson_ofJson_eq_iff raw
  losslessAsJson := toJson_ofJson_same_iff raw

end Operand

end AccessPlan
