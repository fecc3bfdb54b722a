import RecordQuery.Datum
import RecordQuery.Filter.Expr
import RecordQuery.QueryError
import RecordQuery.Schema.RecordType
import RecordQuery.Time.Written

/-! From literals to values of a field's type. A literal that does not denote
exactly one value of the type is an error; nothing is cut off or rounded. -/
namespace RecordQuery

open Text

/-- The integer that is written, if it fits 64 bits. -/
def readInt64? (cs : List Char) : Option Int64 :=
  match integer? cs with
  | some n =>
    if Int64.minValue.toInt ≤ n ∧ n ≤ Int64.maxValue.toInt then some (Int64.ofInt n) else none
  | none => none

namespace Literal

/-- The value of the type that the literal denotes. A text in the form of a
timestamp is a string too. -/
def datum? (l : Literal) (type : FieldType) : Option Datum :=
  match type, l.kind with
  | .string, .string | .string, .timestamp => some (.string (String.ofList l.text))
  | .integer, .number => (readInt64? l.text).map .integer
  | .decimal, .number => (Decimal.read? l.text).map .decimal
  | .timestamp, .timestamp => (Timestamp.read? l.text).map .timestamp
  | .boolean, .boolean => some (.boolean (sameWord l.text ['t', 'r', 'u', 'e']))
  | _, _ => none

end Literal

namespace Field

/-- The error of a literal that is no value of the expected type. -/
def mismatch (f : Field) (l : Literal) (expected : FieldType) : QueryError :=
  .typeMismatch f.name (String.ofList l.display) expected

/-- The value that a literal denotes for the field. -/
def coerce (f : Field) (l : Literal) : Except QueryError Datum :=
  match l.datum? f.type with
  | some d => .ok d
  | none => .error (f.mismatch l f.type)

theorem coerce_eq_ok_iff {f : Field} {l : Literal} {v : Datum} :
    f.coerce l = .ok v ↔ l.datum? f.type = some v := by
  rw [coerce]
  cases l.datum? f.type <;> simp

theorem coerce_of_datum?_eq_none {f : Field} {l : Literal} (h : l.datum? f.type = none) :
    f.coerce l = .error (f.mismatch l f.type) := by
  rw [coerce, h]

/-- The pattern of the texts that have the literal at the given place. -/
def coercePattern (f : Field) (place : LikePattern.Place) (l : Literal) : Except QueryError Datum :=
  match f.coerce l with
  | .ok (.string s) => .ok (.string (String.ofList (LikePattern.ofValue place s.toList)))
  | .ok _ => .error (f.mismatch l .string)
  | .error e => .error e

end Field

end RecordQuery
