import RecordQuery.Json.Document
import RecordQuery.Text.Numeral

/-! Reading JSON trees into types. Trees are walked in the order of the text and
the first fault is reported: a wrong name as soon as it is read, a missing one at
the end of its object. -/
namespace RecordQuery.Json

open Text (natural?)

/-- Why a text is not the JSON of a type. -/
inductive Fault where
  | missingField (name : String)
  | duplicateField (name : String)
  | unknownField (name : String) (known : List String)
  | unknownVariant (name : String) (known : List String)
  /-- The text is no JSON, or a value is of the wrong kind or out of range. -/
  | malformed
deriving DecidableEq, Repr

/-- A list of names to choose from, in words. -/
def oneOf (names : List String) : String :=
  match names with
  | [] => "nothing"
  | [a] => s!"`{a}`"
  | [a, b] => s!"`{a}` or `{b}`"
  | _ => "one of " ++ ", ".intercalate (names.map fun name => s!"`{name}`")

/-- The fault in words, where names are at fault. -/
def Fault.cause? : Fault → Option String
  | .missingField name => some s!"missing field `{name}`"
  | .duplicateField name => some s!"duplicate field `{name}`"
  | .unknownField name known => some s!"unknown field `{name}`, expected {oneOf known}"
  | .unknownVariant name known => some s!"unknown variant `{name}`, expected {oneOf known}"
  | .malformed => none

/-! ## Values that are not looked at -/

mutual

/-- The text does not break off inside the value. -/
def Node.isIntact : Node → Bool
  | .broken => false
  | .array items => items.isIntact
  | .object members => members.isIntact
  | _ => true

def Items.isIntact : Items → Bool
  | .closed => true
  | .broken => false
  | .cons head tail => head.isIntact && tail.isIntact

def Members.isIntact : Members → Bool
  | .closed => true
  | .broken => false
  | .cons _ value tail => value.isIntact && tail.isIntact

end

/-! ## Plain values -/

def Node.readString : Node → Except Fault String
  | .string (some s) => .ok s
  | _ => .error .malformed

def Node.readBool : Node → Except Fault Bool
  | .bool b => .ok b
  | _ => .error .malformed

/-- A natural number up to `max`, written with digits only. -/
def Node.readNat (max : Nat) : Node → Except Fault Nat
  | .number digits =>
    match natural? digits with
    | some n => if n ≤ max then .ok n else .error .malformed
    | none => .error .malformed
  | _ => .error .malformed

def Node.readUInt32 (n : Node) : Except Fault UInt32 :=
  (n.readNat 4294967295).map UInt32.ofNat

/-- A number that fits 64 bits without a sign. -/
def Node.readUInt64 (n : Node) : Except Fault Nat :=
  n.readNat 18446744073709551615

/-- A value or null. -/
def Node.readOptional {α : Type} (read : Node → Except Fault α) : Node → Except Fault (Option α)
  | .null => .ok none
  | n => (read n).map some

def Items.readAll {α : Type} (read : Node → Except Fault α) : Items → Except Fault (List α)
  | .closed => .ok []
  | .broken => .error .malformed
  | .cons head tail => do
    let a ← read head
    let rest ← tail.readAll read
    return a :: rest

/-- An array of values of one kind. -/
def Node.readList {α : Type} (read : Node → Except Fault α) : Node → Except Fault (List α)
  | .array items => items.readAll read
  | _ => .error .malformed

/-- The choice with this name. -/
def choose {α : Type} (choices : List (String × α)) (name : String) : Except Fault α :=
  match choices.find? fun c => c.1 == name with
  | some (_, a) => .ok a
  | none => .error (.unknownVariant name (choices.map Prod.fst))

/-- One of several named values. The name stands alone, or is the only key of an
object, with null. -/
def Node.readChoice {α : Type} (choices : List (String × α)) : Node → Except Fault α
  | .string (some name) => choose choices name
  | .object (.cons (some name) value tail) => do
    let a ← choose choices name
    match value, tail with
    | .null, .closed => return a
    | _, _ => throw .malformed
  | _ => .error .malformed

/-! ## Records -/

/-- A named entry of a record, which is read into a draft. -/
structure Entry (δ : Type) where
  name : String
  /-- The draft has the entry already. -/
  isGiven : δ → Bool
  read : δ → Node → Except Fault δ

/-- How records are read. They are written as an object, or as an array of their
entries in order, of which the last may be left out if they have a default. -/
structure Layout (δ α : Type) where
  entries : List (Entry δ)
  /-- The draft before any entry has been read. -/
  empty : δ
  /-- What is done with a member that is no entry. -/
  other : δ → String → Node → Except Fault δ
  /-- The record, or the first entry that is missing. -/
  finish : δ → Except Fault α

namespace Layout

variable {δ α : Type}

/-- Members that are no entry are faults. -/
def refuse (entries : List (Entry δ)) (_ : δ) (name : String) (_ : Node) : Except Fault δ :=
  .error (.unknownField name (entries.map Entry.name))

/-- Members that are no entry are passed over. -/
def ignore (draft : δ) (_ : String) (n : Node) : Except Fault δ :=
  if n.isIntact then .ok draft else .error .malformed

def readMembers (l : Layout δ α) (draft : δ) : Members → Except Fault α
  | .closed => l.finish draft
  | .broken => .error .malformed
  | .cons none _ _ => .error .malformed
  | .cons (some key) value tail => do
    match l.entries.find? fun e => e.name == key with
    | some entry =>
      if entry.isGiven draft then throw (.duplicateField key)
      l.readMembers (← entry.read draft value) tail
    | none => l.readMembers (← l.other draft key value) tail

def readItems (l : Layout δ α) (draft : δ) (entries : List (Entry δ)) : Items → Except Fault α
  | .closed =>
    match l.finish draft with
    | .ok a => .ok a
    | .error _ => .error .malformed
  | .broken => .error .malformed
  | .cons head tail =>
    match entries with
    | [] => .error .malformed
    | entry :: entries => do l.readItems (← entry.read draft head) entries tail

/-- A record that has to be written as an object. -/
def readObject (l : Layout δ α) : Node → Except Fault α
  | .object members => l.readMembers l.empty members
  | _ => .error .malformed

/-- A record. -/
def read (l : Layout δ α) : Node → Except Fault α
  | .array items => l.readItems l.empty l.entries items
  | n => l.readObject n

end Layout

/-- The entry of a record that is missing. -/
def require {α : Type} (name : String) : Option α → Except Fault α
  | some a => .ok a
  | none => .error (.missingField name)

/-- The value of a whole text. -/
def readText {α : Type} (read : Node → Except Fault α) (text : String) : Except Fault α := do
  let document := Document.ofText text
  let a ← read document.root
  if document.atEnd then return a else throw .malformed

end RecordQuery.Json
