import RecordQuery.Sql.Page
import RecordQuery.Sql.SortKey
import RecordQuery.Text.Numeral

/-! The SQL dialects. They differ in how a placeholder is written, and in where
nulls are sorted unless the statement says so. -/
namespace RecordQuery

open Text (natText)

inductive Dialect where
  | sqlite
  | postgres
  | duckdb
deriving DecidableEq, Repr

namespace Dialect

def all : List Dialect :=
  [.sqlite, .postgres, .duckdb]

/-- The name in configurations and on the command line. -/
def name : Dialect → String
  | .sqlite => "sqlite"
  | .postgres => "postgres"
  | .duckdb => "duckdb"

/-- The placeholder of the value at `index`, counted from one. Indices are words of
64 bits, so that counting goes on from zero after the greatest of them. -/
def placeholder (d : Dialect) (index : Nat) : String :=
  match d with
  | .postgres => "$" ++ natText (index % UInt64.size)
  | _ => "?"

/-- A sort key. In all dialects nulls count as greater than any value. -/
def sortKey (d : Dialect) (k : SortKey) : String :=
  match d, k.direction with
  | .postgres, _ => k.sql
  | _, .ascending => k.sql ++ " NULLS LAST"
  | _, .descending => k.sql ++ " NULLS FIRST"

/-- Several sort keys. -/
def sortKeys (d : Dialect) (keys : List SortKey) : String :=
  ", ".intercalate (keys.map d.sortKey)

/-- The clause for `limit` rows after `offset` rows. -/
def limitOffset (_ : Dialect) (limit offset : Nat) : String :=
  "LIMIT " ++ natText limit ++ " OFFSET " ++ natText offset

/-- The clause that selects a page. -/
def paging (d : Dialect) (p : Page) : String :=
  d.limitOffset p.size.toNat p.offset

end Dialect

end RecordQuery
