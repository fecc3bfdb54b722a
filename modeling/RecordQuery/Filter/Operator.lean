import RecordQuery.FieldType
import RecordQuery.Text.LikePattern

/-! The operators of the filter language. A client writes an operator by its
symbol; a schema may also write it by its name. -/
namespace RecordQuery

open Text (LikePattern.Place)

/-- A comparison of a column with one value. -/
inductive Comparison where
  | equal
  | notEqual
  | greater
  | greaterOrEqual
  | less
  | lessOrEqual
deriving DecidableEq, Repr

namespace Comparison

/-- The comparison in SQL. -/
def sql : Comparison → String
  | .equal => "="
  | .notEqual => "<>"
  | .greater => ">"
  | .greaterOrEqual => ">="
  | .less => "<"
  | .lessOrEqual => "<="

/-- The comparison asks for an order between values. -/
def isRange : Comparison → Bool
  | .equal | .notEqual => false
  | _ => true

end Comparison

/-- What a predicate asks of its field. -/
inductive Operator where
  | compare (comparison : Comparison)
  | pattern (place : LikePattern.Place)
  | null
  | notNull
  | isIn
deriving DecidableEq, Repr

/-- How many values an operator takes. -/
inductive Arity where
  | nullary
  | unary
  | list
deriving DecidableEq, Repr

namespace Operator

/-- Every operator, in the order in which they are listed. -/
def all : List Operator :=
  [.compare .equal, .compare .notEqual, .compare .greater, .compare .greaterOrEqual,
    .compare .less, .compare .lessOrEqual, .pattern .start, .pattern .finish,
    .pattern .anywhere, .null, .notNull, .isIn]

theorem mem_all (op : Operator) : op ∈ all := by
  rcases op with (c | p | _ | _ | _)
  · cases c <;> decide
  · cases p <;> decide
  all_goals decide

/-- The spelling in filter text. -/
def symbol : Operator → String
  | .compare .equal => "="
  | .compare .notEqual => "!="
  | .compare .greater => ">"
  | .compare .greaterOrEqual => ">="
  | .compare .less => "<"
  | .compare .lessOrEqual => "<="
  | .pattern .start => "$sw"
  | .pattern .finish => "$ew"
  | .pattern .anywhere => "$ct"
  | .null => "$null"
  | .notNull => "$nn"
  | .isIn => "$in"

/-- The spelling that schemas may use instead of the symbol. -/
def name : Operator → String
  | .compare .equal => "EQUAL"
  | .compare .notEqual => "NOT_EQUAL"
  | .compare .greater => "GREATER"
  | .compare .greaterOrEqual => "GREATER_OR_EQUAL"
  | .compare .less => "LESS"
  | .compare .lessOrEqual => "LESS_OR_EQUAL"
  | .pattern .start => "START_WITH"
  | .pattern .finish => "END_WITH"
  | .pattern .anywhere => "CONTAINS"
  | .null => "NULL"
  | .notNull => "NOT_NULL"
  | .isIn => "IN"

/-- The operator with this symbol. -/
def ofSymbol? (s : String) : Option Operator :=
  all.find? fun op => op.symbol == s

def arity : Operator → Arity
  | .null | .notNull => .nullary
  | .isIn => .list
  | _ => .unary

/-- The operator is a search in text. -/
def isPattern : Operator → Bool
  | .pattern _ => true
  | _ => false

/-- The operator has a meaning for fields of the type: only text is searched,
and truth values have no order. -/
def appliesTo (op : Operator) (t : FieldType) : Bool :=
  match op with
  | .pattern _ => t == .string
  | .compare c => !(c.isRange && t == .boolean)
  | _ => true

end Operator

end RecordQuery
