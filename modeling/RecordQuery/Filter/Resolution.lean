import RecordQuery.Filter.Coercion

/-! Looking the predicates of a filter up in a record type. Predicates are taken
in the order of the text, and the first that is at fault decides the error. -/
namespace RecordQuery

/-- A predicate on a declared field, with values of the field's type. -/
structure ResolvedPredicate where
  field : Field
  test : Test Datum
deriving DecidableEq, Repr

namespace Field

/-- The test with the values that its literals denote for the field. -/
def resolveTest (f : Field) : Test Literal → Except QueryError (Test Datum)
  | .null => .ok .null
  | .notNull => .ok .notNull
  | .compare c l => (f.coerce l).map (.compare c)
  | .pattern p l => (f.coercePattern p l).map (.pattern p)
  | .isIn ls => (ls.mapM f.coerce).map .isIn

end Field

/-- The predicate on the field that it names. The field has to be declared and
has to allow the operator, before values are looked at. -/
def Predicate.resolve (record : RecordType) (p : Predicate) : Except QueryError ResolvedPredicate :=
  match record.field? p.field with
  | none => .error (.unknownField p.field)
  | some f =>
    if f.operators.contains p.test.operator then
      (f.resolveTest p.test).map fun test => ⟨f, test⟩
    else .error (.operatorNotAllowed f.name p.test.operator)

/-- The expression with all its predicates resolved. -/
def Expr.resolve (record : RecordType) (e : Expr Predicate) :
    Except QueryError (Expr ResolvedPredicate) :=
  e.traverse (Predicate.resolve record)

end RecordQuery
