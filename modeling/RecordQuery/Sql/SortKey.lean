/-! Sort keys: a column and a direction. -/
namespace RecordQuery

inductive Direction where
  | ascending
  | descending
deriving DecidableEq, Repr

def Direction.sql : Direction → String
  | .ascending => "ASC"
  | .descending => "DESC"

/-- What results are sorted by; of several keys, later ones break ties. -/
structure SortKey where
  column : String
  direction : Direction
deriving DecidableEq, Repr

/-- The key without a word on where nulls go. -/
def SortKey.sql (k : SortKey) : String :=
  k.column ++ " " ++ k.direction.sql

end RecordQuery
