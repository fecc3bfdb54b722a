import RecordQuery.QueryError
import RecordQuery.Schema.RecordType
import RecordQuery.Sql.SortKey

/-! Order text: fields to sort by, separated by commas, each with a direction
after it or ascending. -/
namespace RecordQuery

open Text

/-- The direction that a word names, in any case. -/
def Direction.ofWord? (word : List Char) : Option Direction :=
  if sameWord word ['a', 's', 'c'] then some .ascending
  else if sameWord word ['d', 'e', 's', 'c'] then some .descending
  else none

namespace Order

/-- The pieces between the commas of a text, one more than there are commas. -/
def segments : List Char → List (List Char)
  | [] => [[]]
  | c :: cs =>
    if c = ',' then [] :: segments cs
    else
      match segments cs with
      | s :: rest => (c :: s) :: rest
      | [] => [[c]]

/-- One segment: a name, and what is written after it, if anything is. -/
structure Segment where
  name : String
  direction : Option (List Char)
deriving DecidableEq, Repr

/-- The name and the direction of a segment; none if it is blank. -/
def Segment.ofChars? (cs : List Char) : Option Segment :=
  let cs := trimmed cs
  if cs.isEmpty then none
  else
    let name := String.ofList (cs.takeWhile fun c => !isBlank c)
    match cs.dropWhile fun c => !isBlank c with
    | [] => some ⟨name, none⟩
    | _ :: rest => some ⟨name, some (trimmed rest)⟩

namespace Segment

/-- The direction that is meant. -/
def resolveDirection (s : Segment) : Except QueryError Direction :=
  match s.direction with
  | none => .ok .ascending
  | some word =>
    match Direction.ofWord? word with
    | some direction => .ok direction
    | none => .error (.invalidDirection s.name (String.ofList word))

/-- The field that is meant, if results can be sorted by it. -/
def field? (s : Segment) (record : RecordType) : Option Field :=
  (record.field? s.name).filter Field.orderable

/-- The error of a segment whose name is no field to sort by. -/
def nameError (s : Segment) (record : RecordType) : QueryError :=
  match record.field? s.name with
  | some _ => .fieldNotOrderable s.name
  | none => .unknownField s.name

end Segment

/-- The sort keys of segments, from the one at `index` on. The names in `taken` are
in use already. Without `strict`, segments that name no field to sort by are
passed over. -/
def keys (record : RecordType) (strict : Bool) (index : Nat) (taken : List String) :
    List (List Char) → Except QueryError (List SortKey)
  | [] => .ok []
  | cs :: rest =>
    match Segment.ofChars? cs with
    | none => .error (.emptyOrderSegment index)
    | some s => do
      let direction ← s.resolveDirection
      match s.field? record with
      | some field =>
        if taken.contains field.name then throw (.duplicateOrderField s.name)
        let following ← keys record strict (index + 1) (field.name :: taken) rest
        return ⟨field.column, direction⟩ :: following
      | none =>
        if strict then throw (s.nameError record)
        keys record strict (index + 1) taken rest

/-- The sort keys of an order text. -/
def compile (record : RecordType) (limits : Limits) (strict : Bool) (text : String) :
    Except QueryError (List SortKey) :=
  let all := segments text.toList
  if limits.orderFields < all.length then .error (.limitExceeded .orderFields limits.orderFields)
  else keys record strict 0 [] all

end Order

end RecordQuery
