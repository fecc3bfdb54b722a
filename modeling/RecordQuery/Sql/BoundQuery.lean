import RecordQuery.Sql.Condition

/-! Queries that are written from front to back, where each placeholder is written
together with the value that is bound to it. What is written stays; a later part
is appended, in the order of the calls. -/
namespace RecordQuery

/-- What a database is given for a value. SQLite has no decimals; it is given their
digits, which keep the value as it is. -/
def Dialect.given (d : Dialect) : Datum → Datum
  | .decimal x => if d = .sqlite then .string x.text else .decimal x
  | v => v

/-- A query in the making. -/
structure BoundQuery where
  dialect : Dialect
  text : String
  /-- The values of the placeholders that have been written. -/
  binds : List Datum
  /-- A condition has been written. -/
  hasCondition : Bool
deriving DecidableEq, Repr

namespace BoundQuery

/-- A query that begins with this text. -/
def ofText (d : Dialect) (text : String) : BoundQuery :=
  ⟨d, text, [], false⟩

/-- Appends text. -/
def push (q : BoundQuery) (text : String) : BoundQuery :=
  { q with text := q.text ++ text }

/-- Appends the next placeholder and binds its value. -/
def pushBind (q : BoundQuery) (v : Datum) : BoundQuery :=
  { q with
    text := q.text ++ q.dialect.placeholder (q.binds.length + 1)
    binds := q.binds ++ [v] }

/-- Appends a fragment. Each `?` takes the next value; one for which there is no
value is left out. -/
def pushFragment (q : BoundQuery) (values : List Datum) : List Char → BoundQuery
  | [] => q
  | c :: cs =>
    if c = '?' then
      match values with
      | v :: vs => (q.pushBind v).pushFragment vs cs
      | [] => q.pushFragment [] cs
    else (q.push (String.singleton c)).pushFragment values cs

/-- Appends a condition on the rows. -/
def addCondition (q : BoundQuery) (c : Condition) : BoundQuery :=
  let begun := { q.push (if q.hasCondition then " AND " else " WHERE ") with hasCondition := true }
  begun.pushFragment c.values c.fragment.toList

/-- Appends the keys to sort by. -/
def addOrder (q : BoundQuery) (keys : List SortKey) : BoundQuery :=
  q.push (" ORDER BY " ++ q.dialect.sortKeys keys)

/-- The value of a number of rows; the greatest one there is stands for more. -/
def rowCount (n : Nat) : Datum :=
  .integer (Int64.ofInt (min n Int64.maxValue.toInt))

/-- Appends the selection of a page. -/
def addPage (q : BoundQuery) (p : Page) : BoundQuery :=
  (((q.push " LIMIT ").pushBind (rowCount p.size.toNat)).push " OFFSET ").pushBind
    (rowCount p.offset)

end BoundQuery

end RecordQuery
