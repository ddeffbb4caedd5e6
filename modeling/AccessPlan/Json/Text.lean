import AccessPlan.Json.Basic

/-!
# Compact JSON text

A value is written without blanks, the members of objects in key order. In strings only the quote,
the backslash and control characters are escaped.

* `Json.quote`: the text of a string.
* `Json.text`: the text of a value; `textItems` and `textMembers` write what brackets enclose.
-/

namespace AccessPlan.Json

/-- The lower-case hexadecimal digit of a number below sixteen. -/
def hexDigit (n : Nat) : Char := (Nat.toDigits 16 n).getD 0 '0'

/-- A character inside a quoted string. -/
def escape (c : Char) : List Char :=
  if c = '"' then ['\\', '"']
  else if c = '\\' then ['\\', '\\']
  else if c = '\x08' then ['\\', 'b']
  else if c = '\x0c' then ['\\', 'f']
  else if c = '\n' then ['\\', 'n']
  else if c = '\r' then ['\\', 'r']
  else if c = '\t' then ['\\', 't']
  else if c.toNat < 0x20 then
    ['\\', 'u', '0', '0', hexDigit (c.toNat / 16), hexDigit (c.toNat % 16)]
  else [c]

/-- The text of a string. -/
def quote (s : String) : String := String.ofList ('"' :: s.toList.flatMap escape ++ ['"'])

/-- Puts brackets around pieces separated by commas. -/
def enclose (opening : String) (pieces : List String) (closing : String) : String :=
  opening ++ String.intercalate "," pieces ++ closing

mutual

/-- The compact text of a value. -/
def text : Json → String
  | .null => "null"
  | .bool value => if value then "true" else "false"
  | .num value => value.text
  | .str value => quote value
  | .arr items => enclose "[" (textItems items) "]"
  | .obj members => enclose "\x7b" (textMembers members) "\x7d"
termination_by structural j => j

/-- The texts of the items of an array. -/
def textItems : List Json → List String
  | [] => []
  | item :: rest => item.text :: textItems rest
termination_by structural items => items

/-- The texts of the members of an object. -/
def textMembers : {bound : Option String} → Entries Json bound → List String
  | _, .nil => []
  | _, .cons key _ value rest => (quote key ++ ":" ++ value.text) :: textMembers rest
termination_by structural _ members => members

end

theorem text_single (key : String) (value : Json) :
    (single key value).text = enclose "\x7b" [quote key ++ ":" ++ value.text] "\x7d" := rfl

end AccessPlan.Json
