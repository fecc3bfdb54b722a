import RecordQuery.Schema.RecordType
import RecordQuery.Sql.Condition

/-! Complete SELECT statements as text, with the values for their placeholders.
Conditions add up; a new order or page replaces the one before. -/
namespace RecordQuery

/-- A SELECT statement in the making. -/
structure Statement where
  dialect : Dialect
  select : String
  source : String
  /-- What stands after WHERE. -/
  condition : Option String
  /-- What stands after ORDER BY. -/
  order : Option String
  /-- The clause that selects a page. -/
  paging : Option String
  /-- The values for the placeholders of the condition, in their order. -/
  params : List Datum
deriving DecidableEq, Repr

namespace Statement

/-- All rows of a record type. -/
def ofRecord (d : Dialect) (r : RecordType) : Statement :=
  ⟨d, r.selectList, r.source, none, none, none, []⟩

/-- The statement for the rows that meet the condition too. -/
def addCondition (s : Statement) (c : Condition) : Statement :=
  let rendered := c.render s.dialect (s.params.length + 1)
  { s with
    condition := some (match s.condition with
      | some existing => existing ++ " AND " ++ rendered
      | none => rendered)
    params := s.params ++ c.values }

/-- The statement with its rows sorted by these keys. -/
def setOrder (s : Statement) (keys : List SortKey) : Statement :=
  { s with order := some (s.dialect.sortKeys keys) }

/-- The statement for one page of its rows. -/
def setPage (s : Statement) (p : Page) : Statement :=
  { s with paging := some (s.dialect.paging p) }

/-- A clause with a word in front, if there is one. -/
def clause (word : String) : Option String → String
  | some text => word ++ text
  | none => ""

/-- The text of the statement. -/
def sql (s : Statement) : String :=
  "SELECT " ++ s.select ++ " FROM " ++ s.source ++ clause " WHERE " s.condition ++
    clause " ORDER BY " s.order ++ clause " " s.paging

end Statement

end RecordQuery
