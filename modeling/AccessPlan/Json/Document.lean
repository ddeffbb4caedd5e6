import AccessPlan.Json.Basic

/-!
# Documents

A document is what a decoder consumes: a JSON value, or a JSON text together with the places at
which it stops being JSON. A text is decoded while it is read, so a fault counts only if nothing
before it was refused, and the order of members is the order of the text.

* `Document.ofJson`: a value as a document without faults, members in key order.
* `Document.toJson`: the value of a document read to its end, or its first fault.
* `Document.skip`: a document passed over. What is passed over is not checked as closely as what is
  read: `unreadable` marks the places that only a reader refuses.
* `Shape`: what a reader that expected something else says that it found.
-/

namespace AccessPlan

/-- Why a text is not JSON: it ends too early, or it goes on in a way that no JSON text does. -/
inductive Fault where
  | truncated
  | illFormed
deriving DecidableEq, Repr

/-- The kind of a value, with the value itself if it is a scalar. -/
inductive Shape where
  | null
  | bool (value : Bool)
  | num (value : Number)
  | str (value : String)
  | sequence
  | map
deriving DecidableEq

/-- What stands where the name of a member is due. -/
inductive Key where
  /-- A name. -/
  | name (value : String)
  /-- A string that a reader refuses and that can be passed over. -/
  | unreadable (fault : Fault)
  /-- The text breaks off. -/
  | broken (fault : Fault)

/-- A JSON value, or as much of a JSON text as there is. The elements of an array or object are
followed by the fault that stands in place of its closing bracket, if there is one. -/
inductive Document where
  | null
  | bool (value : Bool)
  | num (value : Number)
  | str (value : String)
  | arr (items : List Document) (close : Option Fault)
  | obj (members : List (Key × Document)) (close : Option Fault)
  /-- The text breaks off. -/
  | broken (fault : Fault)
  /-- A token that a reader refuses, and what it is to one who passes over it; `quoted` says whether
  it opens with a quote. -/
  | unreadable (quoted : Bool) (fault : Fault) (passed : Document)

namespace Document

/-- Fails with a fault that stands in place of a closing bracket. -/
def closing : Option Fault → Except Fault Unit
  | none => .ok ()
  | some fault => .error fault

/-! ## Values as documents -/

mutual

/-- A value as a document. -/
def ofJson : Json → Document
  | .null => .null
  | .bool value => .bool value
  | .num value => .num value
  | .str value => .str value
  | .arr items => .arr (ofItems items) none
  | .obj members => .obj (ofEntries members) none
termination_by structural j => j

/-- The items of an array as documents. -/
def ofItems : List Json → List Document
  | [] => []
  | item :: rest => ofJson item :: ofItems rest
termination_by structural items => items

/-- The members of an object as documents, in key order. -/
def ofEntries : {bound : Option String} → Entries Json bound → List (Key × Document)
  | _, .nil => []
  | _, .cons key _ value rest => (.name key, ofJson value) :: ofEntries rest
termination_by structural _ members => members

end

/-! ## Reading to the end -/

/-- The name of a member that a reader of objects accepts. -/
def readName : Key → Except Fault String
  | .name value => .ok value
  | .unreadable fault => .error fault
  | .broken fault => .error fault

mutual

/-- The value of a document, or its first fault. -/
def toJson : Document → Except Fault Json
  | .null => .ok .null
  | .bool value => .ok (.bool value)
  | .num value => .ok (.num value)
  | .str value => .ok (.str value)
  | .arr items close => do
    let items ← toItems items
    closing close
    return .arr items
  | .obj members close => do
    let members ← toMembers members
    closing close
    return .ofMembers members
  | .broken fault => .error fault
  | .unreadable _ fault _ => .error fault
termination_by structural d => d

/-- The values of items. -/
def toItems : List Document → Except Fault (List Json)
  | [] => .ok []
  | item :: rest => do
    let item ← item.toJson
    let rest ← toItems rest
    return item :: rest
termination_by structural items => items

/-- The names and values of members, in the order of the text. -/
def toMembers : List (Key × Document) → Except Fault (List (String × Json))
  | [] => .ok []
  | (key, value) :: rest => do
    let name ← readName key
    let value ← value.toJson
    let rest ← toMembers rest
    return (name, value) :: rest
termination_by structural members => members

end

/-! ## Passing over -/

/-- The name of a member passed over. -/
def skipName : Key → Except Fault Unit
  | .name _ => .ok ()
  | .unreadable _ => .ok ()
  | .broken fault => .error fault

mutual

/-- Passes over a document. -/
def skip : Document → Except Fault Unit
  | .null => .ok ()
  | .bool _ => .ok ()
  | .num _ => .ok ()
  | .str _ => .ok ()
  | .arr items close => do
    skipItems items
    closing close
  | .obj members close => do
    skipMembers members
    closing close
  | .broken fault => .error fault
  | .unreadable _ _ passed => passed.skip
termination_by structural d => d

/-- Passes over items. -/
def skipItems : List Document → Except Fault Unit
  | [] => .ok ()
  | item :: rest => do
    item.skip
    skipItems rest
termination_by structural items => items

/-- Passes over members. -/
def skipMembers : List (Key × Document) → Except Fault Unit
  | [] => .ok ()
  | (key, value) :: rest => do
    skipName key
    value.skip
    skipMembers rest
termination_by structural members => members

end

/-! ## Shapes -/

/-- What a reader finds that expected something else. It looks into scalars only. -/
def shape : Document → Except Fault Shape
  | .null => .ok .null
  | .bool value => .ok (.bool value)
  | .num value => .ok (.num value)
  | .str value => .ok (.str value)
  | .arr _ _ => .ok .sequence
  | .obj _ _ => .ok .map
  | .broken fault => .error fault
  | .unreadable _ fault _ => .error fault

end Document

end AccessPlan
