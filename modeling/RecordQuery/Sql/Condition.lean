import RecordQuery.Filter.Resolution
import RecordQuery.Sql.Dialect

/-! Conditions: SQL with placeholders, and the values for them. Each placeholder
of the fragment, from left to right, stands for the value at the same place of
the list. Groups are put in parentheses throughout, so that the fragment does
not depend on the precedence of AND and OR. -/
namespace RecordQuery

/-- A condition whose placeholders are all written `?`. -/
structure Condition where
  fragment : String
  values : List Datum
deriving DecidableEq, Repr

namespace Condition

/-- The text with its placeholders as the dialect writes them, from `index` on. -/
def renderChars (d : Dialect) (index : Nat) : List Char → List Char
  | [] => []
  | c :: cs =>
    if c = '?' then (d.placeholder index).toList ++ renderChars d (index + 1) cs
    else c :: renderChars d index cs

/-- The fragment in a dialect. The first placeholder has the number `index`. -/
def render (c : Condition) (d : Dialect) (index : Nat) : String :=
  String.ofList (renderChars d index c.fragment.toList)

/-- After the greatest index comes zero. -/
example : render ⟨"age IN (?, ?)", [.integer 5, .integer 6]⟩ .postgres 18446744073709551615 =
    "age IN ($18446744073709551615, $0)" := by
  decide +kernel

/-- How many placeholders the fragment has. -/
def placeholderCount (c : Condition) : Nat :=
  c.fragment.toList.count '?'

/-! ## The condition of an expression -/

/-- What is asked of a column. -/
def testFragment (column : String) : Test Datum → String
  | .null => column ++ " IS NULL"
  | .notNull => column ++ " IS NOT NULL"
  | .compare c _ => column ++ " " ++ c.sql ++ " ?"
  | .pattern _ _ => column ++ " LIKE ? ESCAPE '\\'"
  | .isIn vs => column ++ " IN (" ++ ", ".intercalate (vs.map fun _ => "?") ++ ")"

/-- What is asked of all columns. -/
def fragmentOf : Expr ResolvedPredicate → String
  | .leaf p => testFragment p.field.column p.test
  | .and l r => "(" ++ fragmentOf l ++ " AND " ++ fragmentOf r ++ ")"
  | .or l r => "(" ++ fragmentOf l ++ " OR " ++ fragmentOf r ++ ")"

/-- The condition that an expression states. -/
def ofExpr (e : Expr ResolvedPredicate) : Condition where
  fragment := fragmentOf e
  values := e.leaves.flatMap fun p => p.test.values

end Condition

end RecordQuery
