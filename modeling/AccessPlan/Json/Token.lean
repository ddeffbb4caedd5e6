import AccessPlan.Json.Document

/-!
# Tokens of JSON text

The words, strings and numbers of a text, read from left to right. Every step returns what is left
of the text with the evidence that it is not longer. Where the text breaks off, nothing is left.

* `Document.readWord`: the rest of a word.
* `Document.readQuoted`: a string up to its closing quote. Escapes are read even where a reader
  refuses what they stand for, as one who passes over them does not.
* `Document.readNumber`: a number.
-/

namespace AccessPlan

namespace Document

/-- What is left of a text of which at most so many characters are. -/
abbrev Remains (bound : Nat) := { rest : List Char // rest.length ≤ bound }

/-- What is left of a text is left of a longer one. -/
def Remains.widen {low high : Nat} (h : low ≤ high) (rest : Remains low) : Remains high :=
  ⟨rest.1, Nat.le_trans rest.2 h⟩

/-- Whether a character may stand between tokens. -/
def isBlank (c : Char) : Bool := c == ' ' || c == '\t' || c == '\n' || c == '\r'

/-- Drops the longest run of characters in a class. -/
def dropRun (p : Char → Bool) (cs : List Char) : Remains cs.length :=
  ⟨cs.dropWhile p, (List.dropWhile_sublist p).length_le⟩

/-- Drops leading blanks. -/
def dropBlanks (cs : List Char) : Remains cs.length := dropRun isBlank cs

/-! ## Words -/

/-- Reads the remaining characters of a word. -/
def readWord : List Char → (cs : List Char) → Except Fault (Remains cs.length)
  | [], cs => .ok ⟨cs, Nat.le_refl _⟩
  | _ :: _, [] => .error .truncated
  | w :: ws, c :: cs =>
    if w = c then (readWord ws cs).map (Remains.widen (Nat.le_succ _))
    else .error .illFormed

/-! ## Strings -/

/-- The value of a hexadecimal digit. -/
def hexValue? (c : Char) : Option Nat :=
  if '0' ≤ c ∧ c ≤ '9' then some (c.toNat - '0'.toNat)
  else if 'a' ≤ c ∧ c ≤ 'f' then some (c.toNat - 'a'.toNat + 10)
  else if 'A' ≤ c ∧ c ≤ 'F' then some (c.toNat - 'A'.toNat + 10)
  else none

/-- How many bytes characters take. -/
def byteCount : List Char → Nat
  | [] => 0
  | c :: cs => c.utf8Size + byteCount cs

/-- Reads four hexadecimal digits. The text has to hold four more bytes, whatever they are. -/
def readHex (cs : List Char) : Except Fault (Nat × Remains cs.length) :=
  match cs with
  | a :: b :: c :: d :: rest =>
    match hexValue? a, hexValue? b, hexValue? c, hexValue? d with
    | some a, some b, some c, some d =>
      .ok (((a * 16 + b) * 16 + c) * 16 + d, ⟨rest, by simp; omega⟩)
    | _, _, _, _ => .error .illFormed
  | short => .error (if byteCount short < 4 then .truncated else .illFormed)

/-- Reads what follows `\u`: a code point, written as one unit or as a pair of surrogates. A
surrogate without its partner is refused by a reader only. -/
def readCodePoint (cs : List Char) :
    Except Fault (Except Fault Char × Remains cs.length) := do
  let (unit, rest) ← readHex cs
  if 0xDC00 ≤ unit ∧ unit ≤ 0xDFFF then return (.error .illFormed, rest)
  else if 0xD800 ≤ unit ∧ unit ≤ 0xDBFF then
    match hr : rest.1 with
    | [] | ['\\'] => return (.error .truncated, rest)
    | '\\' :: 'u' :: second =>
      let (low, rest') ← readHex second
      if 0xDC00 ≤ low ∧ low ≤ 0xDFFF then
        -- the two surrogates carry ten bits each of what the point is above `U+FFFF`
        let point := 0x10000 + (unit - 0xD800) * 0x400 + (low - 0xDC00)
        return (.ok (Char.ofNat point), ⟨rest'.1, by
          have h1 := rest.2
          have h2 := rest'.2
          rw [hr] at h1
          simp at h1
          omega⟩)
      else return (.error .illFormed, rest)
    | _ => return (.error .illFormed, rest)
  else return (.ok (Char.ofNat unit), rest)

/-- Reads what follows a backslash. -/
def readEscape : (cs : List Char) → Except Fault (Except Fault Char × Remains cs.length)
  | [] => .error .truncated
  | c :: cs =>
    let plain (escaped : Char) : Except Fault (Except Fault Char × Remains (c :: cs).length) :=
      .ok (.ok escaped, ⟨cs, Nat.le_succ _⟩)
    match c with
    | '"' => plain '"'
    | '\\' => plain '\\'
    | '/' => plain '/'
    | 'b' => plain '\x08'
    | 'f' => plain '\x0c'
    | 'n' => plain '\n'
    | 'r' => plain '\r'
    | 't' => plain '\t'
    | 'u' => (readCodePoint cs).map fun (char, rest) => (char, rest.widen (Nat.le_succ _))
    | _ => .error .illFormed

/-- A string up to its closing quote: its characters as a reader takes them, and what is left. -/
structure Quoted (bound : Nat) where
  chars : Except Fault (List Char)
  rest : Except Fault (Remains bound)

namespace Quoted

/-- A string that breaks off. -/
def broken {bound : Nat} (fault : Fault) : Quoted bound := ⟨.error fault, .error fault⟩

/-- Puts a character in front of a string; a character refused stands before all that follows. -/
def push {low high : Nat} (h : low ≤ high) (char : Except Fault Char) (q : Quoted low) :
    Quoted high where
  chars := do
    let char ← char
    let chars ← q.chars
    return char :: chars
  rest := q.rest.map (Remains.widen h)

end Quoted

/-- Reads what follows an opening quote. -/
def readQuoted (cs : List Char) : Quoted cs.length :=
  match cs with
  | [] => .broken .truncated
  | '"' :: cs => ⟨.ok [], .ok ⟨cs, Nat.le_succ _⟩⟩
  | '\\' :: cs =>
    match readEscape cs with
    | .error fault => .broken fault
    | .ok (char, rest) =>
      (readQuoted rest.1).push (Nat.le_trans rest.2 (Nat.le_succ _)) char
  | c :: cs =>
    if c.toNat < 0x20 then .broken .illFormed else (readQuoted cs).push (Nat.le_succ _) (.ok c)
termination_by cs.length
decreasing_by
  · simp only [List.length_cons]
    exact Nat.lt_succ_of_le rest.2
  · simp

/-! ## Numbers -/

/-- A scalar and what is left of the text; nothing is left where the text breaks off. -/
abbrev Scalar (bound : Nat) := Document × Option (Remains bound)

/-- A number that stops where a digit is due: a reader finds the end of the text too early, one who
passes over it only finds no number. -/
def digitMissing {bound : Nat} : List Char → Scalar bound
  | [] => (.unreadable false .truncated (.broken .illFormed), none)
  | _ => (.broken .illFormed, none)

/-- The number of a numeral; one too large for a double is refused by a reader only. -/
def ofNumeral (n : Numeral) : Document :=
  match n.number? with
  | some value => .num value
  | none => .unreadable false .illFormed .null

/-- Lets a scalar be read from a longer text. -/
def Scalar.widen {low high : Nat} (h : low ≤ high) (s : Scalar low) : Scalar high :=
  (s.1, s.2.map (Remains.widen h))

/-- Reads the digits of an exponent and ends the number. -/
def readPower (negative : Bool) (whole : List Char) (fraction : Option (List Char)) (sign : Int)
    (cs : List Char) : Scalar cs.length :=
  match cs.takeWhile Char.isDigit with
  | [] => digitMissing cs
  | digits =>
    (ofNumeral ⟨negative, whole, fraction, some (sign * Numeral.digitsValue digits)⟩,
      some (dropRun Char.isDigit cs))

/-- Reads what follows the letter of an exponent: an optional sign, then digits. -/
def readSignedPower (negative : Bool) (whole : List Char) (fraction : Option (List Char))
    (cs : List Char) : Scalar cs.length :=
  match cs with
  | '+' :: ds => (readPower negative whole fraction 1 ds).widen (Nat.le_succ _)
  | '-' :: ds => (readPower negative whole fraction (-1) ds).widen (Nat.le_succ _)
  | ds => readPower negative whole fraction 1 ds

/-- Reads an exponent, if there is one, and ends the number. -/
def readExponent (negative : Bool) (whole : List Char) (fraction : Option (List Char))
    (cs : List Char) : Scalar cs.length :=
  match cs with
  | 'e' :: ds | 'E' :: ds => (readSignedPower negative whole fraction ds).widen (Nat.le_succ _)
  | cs => (ofNumeral ⟨negative, whole, fraction, none⟩, some ⟨cs, Nat.le_refl _⟩)

/-- Reads the fraction of a number, if there is one, and goes on to its exponent. -/
def readFraction (negative : Bool) (whole : List Char) (cs : List Char) : Scalar cs.length :=
  match cs with
  | '.' :: ds =>
    match ds.takeWhile Char.isDigit with
    | [] => digitMissing ds
    | digits =>
      let rest := dropRun Char.isDigit ds
      (readExponent negative whole (some digits) rest.1).widen
        (Nat.le_trans rest.2 (Nat.le_succ _))
  | cs => readExponent negative whole none cs

/-- Reads the digits before the point: a single zero, or digits that do not start with one. -/
def readWhole (negative : Bool) (cs : List Char) : Scalar cs.length :=
  match cs with
  | '0' :: ds =>
    if (ds.head?.map Char.isDigit).getD false then (.broken .illFormed, none)
    else (readFraction negative ['0'] ds).widen (Nat.le_succ _)
  | cs =>
    match cs.takeWhile Char.isDigit with
    | [] => digitMissing cs
    | digits =>
      let rest := dropRun Char.isDigit cs
      (readFraction negative digits rest.1).widen rest.2

/-- Reads a number. -/
def readNumber (cs : List Char) : Scalar cs.length :=
  match cs with
  | '-' :: ds => (readWhole true ds).widen (Nat.le_succ _)
  | cs => readWhole false cs

end Document

end AccessPlan
