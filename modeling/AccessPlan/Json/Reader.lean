import AccessPlan.Json.Token

/-!
# Reading JSON text

A text is read from left to right into a document. Where the text breaks off, the document holds the
fault at that place, and the brackets around it stay open.

* `Document.readValue`: a value.
* `Document.ofText`: a text to be decoded, as a document, and the fault that follows it if anything
  but blanks does.
* `Json.parse?`: the value of a text of any depth.
-/

namespace AccessPlan

namespace Document

/-! ## Values -/

/-- Takes a word that has been read, or the part of it that there is. -/
def wordOf {bound low : Nat} (h : low ≤ bound) (value : Document) :
    Except Fault (Remains low) → Scalar bound
  | .ok rest => (value, some (rest.widen h))
  | .error fault => (.unreadable false fault (.broken fault), none)

/-- Takes a string that has been read. -/
def stringOf {bound low : Nat} (h : low ≤ bound) (q : Quoted low) : Scalar bound :=
  let passed : Scalar bound := match q.rest with
    | .ok rest => (.str "", some (rest.widen h))
    | .error fault => (.broken fault, none)
  match q.chars with
  | .ok chars => (.str (String.ofList chars), passed.2)
  | .error fault => (.unreadable true fault passed.1, passed.2)

/-- A bracket opened where no more may be: a reader refuses what it encloses. -/
def nested (room : Option Nat) (d : Document) : Document :=
  match room with
  | some 0 => .unreadable false .illFormed d
  | _ => d

/-- The room left inside a bracket. -/
def inside (room : Option Nat) : Option Nat := room.map (· - 1)

/-- The elements between brackets, the fault in place of the closing one, and what is left. -/
structure Elements (α : Type) (bound : Nat) where
  elements : List α
  close : Option Fault
  rest : Option (Remains bound)

/-- The elements between brackets, with one more in front. -/
def Elements.push {α : Type} {low high : Nat} (h : low ≤ high) (element : α) (e : Elements α low) :
    Elements α high :=
  ⟨element :: e.elements, e.close, e.rest.map (Remains.widen h)⟩

/-- A last element at which the text breaks off. -/
def Elements.broken {α : Type} {bound : Nat} (element : α) : Elements α bound :=
  ⟨[element], none, none⟩

/-- A last element that no bracket follows. -/
def Elements.unclosed {α : Type} {bound : Nat} (element : α) (fault : Fault) : Elements α bound :=
  ⟨[element], some fault, none⟩

mutual

/-- Reads a value. The room says how many more brackets may be open at once, if that is limited. -/
def readValue (room : Option Nat) (cs : List Char) : Scalar cs.length :=
  let start := dropBlanks cs
  match hs : start.1 with
  | [] => (.broken .truncated, none)
  | c :: rest =>
    have shorter : rest.length < cs.length := by
      have h := start.2
      rw [hs] at h
      exact Nat.lt_of_succ_le h
    have atMost : rest.length ≤ cs.length := Nat.le_of_lt shorter
    if c = 'n' then wordOf atMost .null (readWord ['u', 'l', 'l'] rest)
    else if c = 't' then wordOf atMost (.bool true) (readWord ['r', 'u', 'e'] rest)
    else if c = 'f' then wordOf atMost (.bool false) (readWord ['a', 'l', 's', 'e'] rest)
    else if c = '"' then stringOf atMost (readQuoted rest)
    else if c = '-' ∨ c.isDigit then
      (readNumber (c :: rest)).widen (by
        have h := start.2
        rw [hs] at h
        exact h)
    else if c = '[' then
      let items := readItems (inside room) rest
      (nested room (.arr items.elements items.close),
        items.rest.map (Remains.widen atMost))
    else if c = '\x7b' then
      let members := readMembers (inside room) rest
      (nested room (.obj members.elements members.close),
        members.rest.map (Remains.widen atMost))
    else (.broken .illFormed, none)
termination_by (cs.length, 0)

/-- Reads what follows an opening bracket. -/
def readItems (room : Option Nat) (cs : List Char) : Elements Document cs.length :=
  let start := dropBlanks cs
  match hs : start.1 with
  | ']' :: rest => ⟨[], none, some ⟨rest, by
      have h := start.2
      rw [hs] at h
      exact Nat.le_of_succ_le h⟩⟩
  | _ => readItem room cs
termination_by (cs.length, 2)

/-- Reads an item and those that follow it. -/
def readItem (room : Option Nat) (cs : List Char) : Elements Document cs.length :=
  match readValue room cs with
  | (item, none) => .broken item
  | (item, some rest) =>
    let next := dropBlanks rest.1
    match hn : next.1 with
    | [] => .unclosed item .truncated
    | c :: after =>
      have shorter : after.length < cs.length := by
        have h := Nat.le_trans next.2 rest.2
        rw [hn] at h
        exact Nat.lt_of_succ_le h
      if c = ']' then ⟨[item], none, some ⟨after, Nat.le_of_lt shorter⟩⟩
      else if c = ',' then (readItem room after).push (Nat.le_of_lt shorter) item
      else .unclosed item .illFormed
termination_by (cs.length, 1)

/-- Reads what follows an opening brace. -/
def readMembers (room : Option Nat) (cs : List Char) : Elements (Key × Document) cs.length :=
  let start := dropBlanks cs
  match hs : start.1 with
  | '\x7d' :: rest => ⟨[], none, some ⟨rest, by
      have h := start.2
      rw [hs] at h
      exact Nat.le_of_succ_le h⟩⟩
  | _ => readMember room cs
termination_by (cs.length, 2)

/-- Reads a member and those that follow it. -/
def readMember (room : Option Nat) (cs : List Char) : Elements (Key × Document) cs.length :=
  let start := dropBlanks cs
  match hs : start.1 with
  | [] => .broken (.broken .truncated, .broken .truncated)
  | '"' :: rest =>
    have shorter : rest.length < cs.length := by
      have h := start.2
      rw [hs] at h
      exact h
    let name := readQuoted rest
    let key : Key := match name.chars with
      | .ok chars => .name (String.ofList chars)
      | .error fault => .unreadable fault
    match name.rest with
    | .error fault => .broken (key, .broken fault)
    | .ok after =>
      let colon := dropBlanks after.1
      match hc : colon.1 with
      | ':' :: rest' =>
        have shorter' : rest'.length < cs.length := by
          have h := Nat.le_trans colon.2 after.2
          rw [hc] at h
          exact Nat.lt_trans (Nat.lt_of_succ_le h) shorter
        match readValue room rest' with
        | (value, none) => .broken (key, value)
        | (value, some rest'') =>
          let next := dropBlanks rest''.1
          match hn : next.1 with
          | [] => .unclosed (key, value) .truncated
          | c :: after' =>
            have shorter'' : after'.length < cs.length := by
              have h := Nat.le_trans next.2 rest''.2
              rw [hn] at h
              exact Nat.lt_trans (Nat.lt_of_succ_le h) shorter'
            if c = '\x7d' then ⟨[(key, value)], none, some ⟨after', Nat.le_of_lt shorter''⟩⟩
            else if c = ',' then
              (readMember room after').push (Nat.le_of_lt shorter'') (key, value)
            else .unclosed (key, value) .illFormed
      | [] => .broken (key, .broken .truncated)
      | _ => .broken (key, .broken .illFormed)
  | _ => .broken (.broken .illFormed, .broken .illFormed)
termination_by (cs.length, 1)

end

/-! ## Texts -/

/-- How deep a text may nest that a decoder reads. -/
def deepest : Nat := 127

/-- A text as a document, and the fault after it if anything but blanks follows. -/
def ofChars (room : Option Nat) (cs : List Char) : Document × Option Fault :=
  match readValue room cs with
  | (d, none) => (d, some .illFormed)
  | (d, some rest) => (d, if (dropBlanks rest.1).1.isEmpty then none else some .illFormed)

/-- A text to be decoded, as a document. -/
def ofText (text : String) : Document × Option Fault := ofChars (some deepest) text.toList

end Document

/-- The value of a text of any depth. -/
def Json.parse? (text : String) : Except Fault Json := do
  let (d, after) := Document.ofChars none text.toList
  let value ← d.toJson
  Document.closing after
  return value

end AccessPlan
