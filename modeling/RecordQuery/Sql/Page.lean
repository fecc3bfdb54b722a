/-! Pages of results. -/
namespace RecordQuery

/-- A page, counted from one, and how many rows a page has. -/
structure Page where
  number : UInt32
  size : UInt32
deriving DecidableEq, Repr

namespace Page

/-- The number of rows before the page. Page zero starts where page one does. -/
def offset (p : Page) : Nat :=
  (p.number.toNat - 1) * p.size.toNat

end Page

end RecordQuery
