import RecordQuery.Decimal
import RecordQuery.FieldType
import RecordQuery.Time.Timestamp

/-! Typed values. Values never become part of SQL text; they are bound to its
placeholders. -/
namespace RecordQuery

/-- A value that is bound to a placeholder. -/
inductive Datum where
  | string (value : String)
  | integer (value : Int64)
  | decimal (value : Decimal)
  | timestamp (value : Timestamp)
  | boolean (value : Bool)
deriving DecidableEq, Repr

namespace Datum

/-- The type of the fields that the value can be compared with. -/
def type : Datum → FieldType
  | .string _ => .string
  | .integer _ => .integer
  | .decimal _ => .decimal
  | .timestamp _ => .timestamp
  | .boolean _ => .boolean

/-- The value as shown to a reader. Strings stand in quotes, unescaped. -/
def text : Datum → String
  | .string s => "'" ++ s ++ "'"
  | .integer n => Text.intText n.toInt
  | .decimal d => d.text
  | .timestamp t => t.text
  | .boolean b => if b then "true" else "false"

end Datum

end RecordQuery
