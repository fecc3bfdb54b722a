/-! Bounds on what one request may ask for. They keep the work for a request, and
the size of its SQL, in proportion. -/
namespace RecordQuery

/-- What is bounded. -/
inductive Limit where
  | filterLength
  | orderLength
  | predicates
  | depth
  | listValues
  | orderFields
deriving DecidableEq, Repr

/-- What messages call the bounded quantity. -/
def Limit.description : Limit → String
  | .filterLength => "filter length"
  | .orderLength => "order length"
  | .predicates => "filter predicate count"
  | .depth => "filter nesting depth"
  | .listValues => "$in value count"
  | .orderFields => "order field count"

/-- The greatest values allowed. Lengths are those of the encoded text, in bytes. -/
structure Limits where
  filterLength : Nat := 16384
  orderLength : Nat := 1024
  predicates : Nat := 50
  depth : Nat := 32
  listValues : Nat := 100
  orderFields : Nat := 10
  pageSize : UInt32 := 500
deriving DecidableEq, Repr

namespace Limits

def max (limits : Limits) : Limit → Nat
  | .filterLength => limits.filterLength
  | .orderLength => limits.orderLength
  | .predicates => limits.predicates
  | .depth => limits.depth
  | .listValues => limits.listValues
  | .orderFields => limits.orderFields

end Limits

end RecordQuery
