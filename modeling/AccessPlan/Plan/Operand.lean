import AccessPlan.Dict.Lemmas
import AccessPlan.Json.Written
import AccessPlan.Plan.Operator

/-!
# Operands

A plan is a tree of operands. On the wire an operand is an object, and the member it holds says
what it is: `expression`, `value` or `variable`, looked for in this order. Everything else is kept
as it came, so that reading a plan never fails.

* `Operand.ofJson`: the operand that a JSON value stands for.
* `Operand.written`, `Operand.toJson`: the wire form of an operand.
* `ofJson_obj`: the grammar in terms of look-ups.
-/

namespace AccessPlan

/-- A node of a plan. -/
inductive Operand where
  /-- An operator applied to operands. -/
  | expression (operator : Operator) (operands : List Operand)
  /-- A variable, named by its path. -/
  | reference (path : String)
  /-- A literal. -/
  | literal (value : Json)
  /-- A value that is none of these. -/
  | unrecognized (raw : Json)
deriving Inhabited

namespace Operand

/-- The comparison of a variable with a literal. -/
def comparison (operator : Operator) (path : String) (value : Json) : Operand :=
  .expression operator [.reference path, .literal value]

/-! ## The wire form -/

mutual

/-- An operand as it is put out. -/
def written : Operand → Written
  | .expression operator operands =>
    .single "expression"
      (.record [("operator", .str operator.tag), ("operands", .list (writtenAll operands))])
  | .reference path => .single "variable" (.str path)
  | .literal value => .single "value" (.json value)
  | .unrecognized raw => .json raw
termination_by structural o => o

/-- Several operands as they are put out. -/
def writtenAll : List Operand → List Written
  | [] => []
  | o :: rest => o.written :: writtenAll rest
termination_by structural os => os

end

/-- The JSON value of an operand. -/
def toJson (o : Operand) : Json := o.written.toJson

/-- The text of an operand. -/
def text (o : Operand) : String := o.written.text

/-! ## Classification -/

mutual

/-- The operand that a value stands for. -/
def ofJson : Json → Operand
  | .obj members =>
    match expressionIn members with
    | some (some (operator, operands)) => .expression operator operands
    | some none => .unrecognized (.obj members)
    | none =>
      match members.get? "value" with
      | some value => .literal value
      | none =>
        match members.get? "variable" with
        | some (.str path) => .reference path
        | _ => .unrecognized (.obj members)
  | raw => .unrecognized raw
termination_by structural j => j

/-- The member `expression`, if there is one, as an operator and its operands, if it is that. -/
def expressionIn : {bound : Option String} → Entries Json bound →
    Option (Option (Operator × List Operand))
  | _, .nil => none
  | _, .cons key _ value rest =>
    if key = "expression" then some (expressionOf value) else expressionIn rest
termination_by structural _ members => members

/-- An operator and its operands: an object whose `operator` is a string. -/
def expressionOf : Json → Option (Operator × List Operand)
  | .obj body =>
    match body.get? "operator", operandsIn body with
    | some (.str tag), some operands => some (.ofTag tag, operands)
    | _, _ => none
  | _ => none
termination_by structural j => j

/-- The operands in the member `operands`: none if it is absent, otherwise the items of an array. -/
def operandsIn : {bound : Option String} → Entries Json bound → Option (List Operand)
  | _, .nil => some []
  | _, .cons key _ value rest => if key = "operands" then operandsOf value else operandsIn rest
termination_by structural _ members => members

/-- The operands that the items of an array stand for. -/
def operandsOf : Json → Option (List Operand)
  | .arr items => some (ofItems items)
  | _ => none
termination_by structural j => j

/-- The operands that values stand for. -/
def ofItems : List Json → List Operand
  | [] => []
  | item :: rest => ofJson item :: ofItems rest
termination_by structural items => items

end

theorem ofItems_eq_map (items : List Json) : ofItems items = items.map ofJson := by
  induction items with
  | nil => rfl
  | cons item rest ih => rw [ofItems, ih, List.map_cons]

theorem writtenAll_eq_map (os : List Operand) : writtenAll os = os.map written := by
  induction os with
  | nil => rfl
  | cons o rest ih => rw [writtenAll, ih, List.map_cons]

theorem expressionIn_eq {bound : Option String} (members : Entries Json bound) :
    expressionIn members = (members.get? "expression").map expressionOf := by
  induction members with
  | nil => rfl
  | cons key above value rest ih =>
    rw [expressionIn, Entries.get?_cons, ih]
    by_cases h : key = "expression"
    · subst h; simp
    · simp [h, Ne.symm h]

theorem operandsIn_eq {bound : Option String} (members : Entries Json bound) :
    operandsIn members =
      match members.get? "operands" with
      | none => some []
      | some value => operandsOf value := by
  induction members with
  | nil => rfl
  | cons key above value rest ih =>
    rw [operandsIn, Entries.get?_cons, ih]
    by_cases h : key = "operands"
    · subst h; simp
    · simp [h, Ne.symm h]

/-- The grammar of operands in terms of look-ups. -/
theorem ofJson_obj (members : Dict Json) :
    ofJson (.obj members) =
      match members.get? "expression", members.get? "value", members.get? "variable" with
      | some body, _, _ =>
        match expressionOf body with
        | some (operator, operands) => .expression operator operands
        | none => .unrecognized (.obj members)
      | none, some value, _ => .literal value
      | none, none, some (.str path) => .reference path
      | none, none, _ => .unrecognized (.obj members) := by
  rw [ofJson, expressionIn_eq]
  cases members.get? "expression" with
  | some body =>
    cases h : expressionOf body with
    | none => simp [h]
    | some e => simp [h]
  | none =>
    cases members.get? "value" with
    | some value => rfl
    | none =>
      cases members.get? "variable" with
      | none => rfl
      | some v => cases v <;> rfl

end Operand

end AccessPlan
