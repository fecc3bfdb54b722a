/-! The types that a field can be declared with. -/
namespace RecordQuery

/-- The type of the values that a field is compared with. -/
inductive FieldType where
  | string
  | integer
  | decimal
  | timestamp
  | boolean
deriving DecidableEq, Repr

namespace FieldType

def all : List FieldType :=
  [.string, .integer, .decimal, .timestamp, .boolean]

/-- The name of the type in schemas and messages. -/
def name : FieldType → String
  | .string => "string"
  | .integer => "integer"
  | .decimal => "decimal"
  | .timestamp => "timestamp"
  | .boolean => "boolean"

end FieldType

end RecordQuery
