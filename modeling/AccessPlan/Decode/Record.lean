import AccessPlan.Decode.Basic

/-!
# Decoding records

A record is described by its fields in declaration order. It is given as an object whose members
come in any order, or as an array of its fields in declaration order. A field that is not required
may be absent and then keeps its default.

* `Schema.decoder`: the decoder of a record.
* `Schema.ofMembers`, `Schema.ofItems`: its two forms.
-/

namespace AccessPlan

/-- A field of a record: its name, whether it must be given, and how it is decoded and set. -/
structure Field (ρ : Type) where
  name : String
  mandatory : Bool
  decode : Decoder (ρ → ρ)

namespace Field

variable {ρ α : Type}

/-- A field that must be given. -/
def required (name : String) (decoder : Decoder α) (set : ρ → α → ρ) : Field ρ :=
  ⟨name, true, fun medium d => (fun value record => set record value) <$> decoder medium d⟩

/-- A field that keeps its default when it is absent. -/
def defaulted (name : String) (decoder : Decoder α) (set : ρ → α → ρ) : Field ρ :=
  ⟨name, false, fun medium d => (fun value record => set record value) <$> decoder medium d⟩

end Field

/-- A type of records: its name, its fields in declaration order, whether other members are refused,
and the record with every field at its default. -/
structure Schema (ρ : Type) where
  name : String
  fields : List (Field ρ)
  closed : Bool
  default : ρ

namespace Schema

variable {ρ : Type}

/-- The names of the fields. -/
def fieldNames (schema : Schema ρ) : List String := schema.fields.map Field.name

/-- The field of a name. -/
def field? (schema : Schema ρ) (name : String) : Option (Field ρ) :=
  schema.fields.find? fun field => field.name = name

/-- Sets fields from members; the names are those given so far. -/
def setMembers (schema : Schema ρ) (medium : Medium) :
    List (Key × Document) → List String → ρ → Except DecodeError (List String × ρ)
  | [], given, record => .ok (given, record)
  | (key, d) :: rest, given, record => do
    let name ← Decoder.reading (Document.readName key)
    match schema.field? name with
    | none =>
      if schema.closed then throw (.unknownField name schema.fieldNames)
      Decoder.reading d.skip
      schema.setMembers medium rest given record
    | some field =>
      if name ∈ given then throw (.duplicateField name)
      let set ← field.decode medium d
      schema.setMembers medium rest (name :: given) (set record)

/-- Decodes a record given as an object. -/
def ofMembers (schema : Schema ρ) (medium : Medium) (members : List (Key × Document))
    (close : Option Fault) : Except DecodeError ρ := do
  let (given, record) ← schema.setMembers medium members [] schema.default
  Decoder.reading (Document.closing close)
  match schema.fields.find? fun field => field.mandatory && field.name ∉ given with
  | some field => throw (.missingField field.name)
  | none => return record

/-- Sets the fields that are due from items. The first number is the position of the next field, the
second one the number of all items. -/
def setItems (schema : Schema ρ) (medium : Medium) (close : Option Fault) (total : Nat) :
    List (Field ρ) → List Document → Nat → ρ → Except DecodeError ρ
  | [], [], _, record => do
    Decoder.reading (Document.closing close)
    return record
  | [], _ :: _, _, _ =>
    match medium with
    | .value => throw (.tooLong total)
    | .text => throw (.fault .illFormed)
  | field :: fields, [], position, record => do
    Decoder.reading (Document.closing close)
    if field.mandatory then throw (.tooShort position schema.name schema.fields.length)
    schema.setItems medium close total fields [] (position + 1) record
  | field :: fields, d :: items, position, record => do
    let set ← field.decode medium d
    schema.setItems medium close total fields items (position + 1) (set record)

/-- Decodes a record given as an array. -/
def ofItems (schema : Schema ρ) (medium : Medium) (items : List Document) (close : Option Fault) :
    Except DecodeError ρ :=
  schema.setItems medium close items.length schema.fields items 0 schema.default

/-- Decodes a record. -/
def decoder (schema : Schema ρ) : Decoder ρ
  | medium, .obj members close => schema.ofMembers medium members close
  | medium, .arr items close => schema.ofItems medium items close
  | _, d => Decoder.wrongType (.record schema.name) d

end Schema

end AccessPlan
