import AccessPlan.Json.Document
import AccessPlan.Text.Quoted

/-!
# Decoding errors

* `DecodeError`: why a document is not what it should be.
* `DecodeError.message`: the error as a sentence. A fault of the text has none.
-/

namespace AccessPlan

/-- What a decoder expects. -/
inductive Expected where
  | string
  | boolean
  | sequence
  | map
  | record (name : String)
  | variant
  | unit
deriving DecidableEq

/-- Why a document is not what it should be. -/
inductive DecodeError where
  /-- The text is not JSON. -/
  | fault (fault : Fault)
  | wrongType (found : Shape) (expected : Expected)
  | missingField (name : String)
  | duplicateField (name : String)
  | unknownField (name : String) (known : List String)
  | unknownVariant (name : String) (known : List String)
  /-- A variant as an object that does not have exactly one member. -/
  | severalMembers
  /-- An array ends where a required field is due. -/
  | tooShort (length : Nat) (record : String) (fields : Nat)
  /-- An array has more items than there are fields. -/
  | tooLong (length : Nat)
deriving DecidableEq

/-- What was found, in words. -/
def Shape.describe : Shape → String
  | .null => "null"
  | .bool value => "boolean `" ++ (if value then "true" else "false") ++ "`"
  | .num (.int value fits) => "integer `" ++ (Number.int value fits).text ++ "`"
  | .num (.double value) => "floating point `" ++ Number.doubleText value ++ "`"
  | .str value => "string " ++ Text.quoted value
  | .sequence => "sequence"
  | .map => "map"

/-- What was expected, in words. -/
def Expected.describe : Expected → String
  | .string => "a string"
  | .boolean => "a boolean"
  | .sequence => "a sequence"
  | .map => "a map"
  | .record name => "struct " ++ name
  | .variant => "string or map"
  | .unit => "unit"

namespace DecodeError

/-- Names that would have been right: two as alternatives, more as a list. -/
def alternatives (names : List String) : String :=
  match names.map fun name => "`" ++ name ++ "`" with
  | [] => "nothing"
  | [one] => one
  | [one, two] => one ++ " or " ++ two
  | many => "one of " ++ String.intercalate ", " many

/-- The error as a sentence, unless the text is not JSON. -/
def message? : DecodeError → Option String
  | .fault _ => none
  | .wrongType found expected =>
    some ("invalid type: " ++ found.describe ++ ", expected " ++ expected.describe)
  | .missingField name => some ("missing field `" ++ name ++ "`")
  | .duplicateField name => some ("duplicate field `" ++ name ++ "`")
  | .unknownField name known =>
    some ("unknown field `" ++ name ++ "`, expected " ++ alternatives known)
  | .unknownVariant name known =>
    some ("unknown variant `" ++ name ++ "`, expected " ++ alternatives known)
  | .severalMembers => some "invalid value: map, expected map with a single key"
  | .tooShort length record fields =>
    some ("invalid length " ++ toString length ++ ", expected struct " ++ record ++ " with " ++
      toString fields ++ " elements")
  | .tooLong length =>
    some ("invalid length " ++ toString length ++ ", expected fewer elements in array")

end DecodeError

end AccessPlan
