import AccessPlan.Decode.Error
import AccessPlan.Json.Reader

/-!
# Decoders

A decoder takes a document for a value of some type. It goes through the document from left to
right and stops at the first thing that is wrong, be it in the text or in what the text says.

* `Decoder.string`, `boolean`, `listOf`, `dictOf`, `optional`, `json`: the decoders of simple types.
* `Decoder.variant`: a name out of a list, given as a string or as the only member of an object.
* `Decoder.ofValue`, `Decoder.ofText`: the two ways of running a decoder.
-/

namespace AccessPlan

/-- What a document was made from. A text is decoded while it is read, a value when it is known as
a whole. -/
inductive Medium where
  | value
  | text
deriving DecidableEq, Repr

/-- Takes a document for a value of some type. -/
abbrev Decoder (α : Type) := Medium → Document → Except DecodeError α

namespace Decoder

variable {α : Type}

/-- A step of reading as a step of decoding. -/
def reading (result : Except Fault α) : Except DecodeError α := result.mapError .fault

/-- Fails because something else was expected. -/
def wrongType (expected : Expected) (d : Document) : Except DecodeError α := do
  let found ← reading d.shape
  throw (.wrongType found expected)

/-- Decodes any value. -/
def json : Decoder Json := fun _ d => reading d.toJson

/-- Decodes a string. -/
def string : Decoder String
  | _, .str value => .ok value
  | _, d => wrongType .string d

/-- Decodes a boolean. -/
def boolean : Decoder Bool
  | _, .bool value => .ok value
  | _, d => wrongType .boolean d

/-- Decodes `null` as nothing. -/
def optional (decoder : Decoder α) : Decoder (Option α)
  | _, .null => .ok none
  | medium, d => some <$> decoder medium d

/-- Decodes an array. -/
def listOf (decoder : Decoder α) : Decoder (List α)
  | medium, .arr items close => do
    let values ← items.mapM (decoder medium)
    reading (Document.closing close)
    return values
  | _, d => wrongType .sequence d

/-- Decodes an object whose names are free; of several members of one name the last one stays. -/
def dictOf (decoder : Decoder α) : Decoder (Dict α)
  | medium, .obj members close => do
    let pairs ← members.mapM fun (key, d) => do
      let name ← reading (Document.readName key)
      let value ← decoder medium d
      return (name, value)
    reading (Document.closing close)
    return .ofList pairs
  | _, d => wrongType .map d

/-! ## Variants -/

/-- The variant of a name. -/
def variantNamed (variants : List (String × α)) (name : String) : Except DecodeError α :=
  match variants.lookup name with
  | some variant => .ok variant
  | none => .error (.unknownVariant name (variants.map Prod.fst))

/-- Decodes what is given for a variant that holds nothing. -/
def unit : Decoder Unit
  | _, .null => .ok ()
  | _, d => wrongType .unit d

/-- Decodes a variant given as an object: its name, then `null`. -/
def variantMember (variants : List (String × α)) (medium : Medium) (key : Key) (d : Document) :
    Except DecodeError α := do
  let name ← reading (Document.readName key)
  let variant ← variantNamed variants name
  unit medium d
  return variant

/-- Decodes a variant. A text that is neither a string nor an object with one member is ill-formed
here; a value is of the wrong type. -/
def variant (variants : List (String × α)) : Decoder α
  | _, .str name => variantNamed variants name
  | .value, .obj [(key, d)] _ => variantMember variants .value key d
  | .value, .obj _ _ => .error .severalMembers
  | .value, d => wrongType .variant d
  | .text, .obj ((key, d) :: rest) close => do
    let variant ← variantMember variants .text key d
    if rest.isEmpty then reading (Document.closing close) else throw (.fault .illFormed)
    return variant
  | .text, .broken fault => .error (.fault fault)
  | .text, .unreadable true fault _ => .error (.fault fault)
  | .text, _ => .error (.fault .illFormed)

/-! ## Running a decoder -/

/-- Decodes a value. -/
def ofValue (decoder : Decoder α) (j : Json) : Except DecodeError α := decoder .value (.ofJson j)

/-- Decodes a text, after which nothing but blanks may follow. -/
def ofText (decoder : Decoder α) (text : String) : Except DecodeError α := do
  let (d, after) := Document.ofText text
  let value ← decoder .text d
  reading (Document.closing after)
  return value

end Decoder

end AccessPlan
