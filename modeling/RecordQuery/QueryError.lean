import RecordQuery.Filter.Token
import RecordQuery.Limits
import RecordQuery.Text.FormEncoding
import RecordQuery.Text.Numeral

/-! Why a request cannot be compiled. A cause carries what its message needs, and
has a code that does not change when the wording does. -/
namespace RecordQuery

open Text

/-- Why the tokens of a filter make up no expression. -/
inductive ParseCause where
  | emptyFilter
  | missingTerm
  | unexpectedTerm (found : TokenKind)
  | missingOperator (field : String)
  | missingValue (op : Operator)
  | unexpectedValue (op : Operator) (found : TokenKind)
  | unexpectedInList
  | unexpectedInGroup
  | unclosedParen
  | unopenedParen
  | trailingToken (found : TokenKind)
deriving DecidableEq, Repr

def ParseCause.message : ParseCause → String
  | .emptyFilter => "filter expression is empty"
  | .missingTerm => "expected a predicate or '('"
  | .unexpectedTerm found => s!"expected a field name or '(', found {found.description}"
  | .missingOperator field => s!"expected an operator after field '{field}'"
  | .missingValue op => s!"missing value for operator {op.symbol}"
  | .unexpectedValue op found =>
    s!"expected a value for operator {op.symbol}, found {found.description}"
  | .unexpectedInList => "expected ',' or ')' in value list"
  | .unexpectedInGroup => "expected ')'"
  | .unclosedParen => "unbalanced '('"
  | .unopenedParen => "unbalanced ')'"
  | .trailingToken found => s!"unexpected {found.description} after expression"

/-- The byte of the filter text where the fault lies, and what it is. -/
structure ParseError where
  position : Nat
  cause : ParseCause
deriving DecidableEq, Repr

/-- Why a page cannot be asked for. -/
inductive PageCause where
  | pageTooSmall
  | sizeTooSmall
  | sizeTooLarge (max : UInt32)
deriving DecidableEq, Repr

namespace PageCause

/-- The request parameter at fault. -/
def parameter : PageCause → String
  | .pageTooSmall => "page"
  | _ => "pageSize"

def message : PageCause → String
  | .pageTooSmall => "Page must be >= 1"
  | .sizeTooSmall => "Page size must be >= 1"
  | .sizeTooLarge max => s!"Page size must be <= {max.toNat}"

end PageCause

/-- Why a request cannot be compiled. -/
inductive QueryError where
  | malformedInput (error : FormEncoding.DecodeError)
  | lex (error : LexError)
  | parse (error : ParseError)
  | unknownField (field : String)
  | operatorNotAllowed (field : String) (op : Operator)
  | typeMismatch (field : String) (literal : String) (expected : FieldType)
  | fieldNotOrderable (field : String)
  | invalidDirection (field : String) (direction : String)
  | duplicateOrderField (field : String)
  | emptyOrderSegment (index : Nat)
  | invalidPage (value : UInt32) (cause : PageCause)
  | unknownRecord (record : String)
  | limitExceeded (limit : Limit) (max : Nat)
deriving DecidableEq, Repr

namespace QueryError

/-- The fixed identifier of the kind of error. -/
def code : QueryError → String
  | .malformedInput _ => "MALFORMED_INPUT"
  | .lex _ => "INVALID_FILTER_SYNTAX"
  | .parse _ => "INVALID_FILTER_EXPRESSION"
  | .unknownField _ => "UNKNOWN_FIELD"
  | .operatorNotAllowed _ _ => "OPERATOR_NOT_ALLOWED"
  | .typeMismatch _ _ _ => "TYPE_MISMATCH"
  | .fieldNotOrderable _ => "FIELD_NOT_ORDERABLE"
  | .invalidDirection _ _ => "INVALID_ORDER_DIRECTION"
  | .duplicateOrderField _ => "DUPLICATE_ORDER_FIELD"
  | .emptyOrderSegment _ => "INVALID_ORDER"
  | .invalidPage _ _ => "INVALID_PAGINATION"
  | .unknownRecord _ => "METADATA_NOT_FOUND"
  | .limitExceeded _ _ => "LIMIT_EXCEEDED"

def message : QueryError → String
  | .malformedInput e => s!"Malformed input at byte {e.position}: {e.cause.message}"
  | .lex e => s!"Invalid filter syntax at position {e.position}: {e.cause.message}"
  | .parse e => s!"Invalid filter expression at position {e.position}: {e.cause.message}"
  | .unknownField field => s!"Unknown field: {field}"
  | .operatorNotAllowed field op => s!"Operator {op.symbol} is not allowed on field {field}"
  | .typeMismatch field literal expected =>
    s!"Value {literal} is not a valid {expected.name} for field {field}"
  | .fieldNotOrderable field => s!"Cannot order by field: {field}"
  | .invalidDirection field direction =>
    s!"Invalid sort direction '{direction}' for field {field}. Use 'asc' or 'desc'"
  | .duplicateOrderField field => s!"Field {field} appears more than once in the order"
  | .emptyOrderSegment index => s!"Empty order segment at index {index}"
  | .invalidPage value cause => s!"Invalid {cause.parameter} {value.toNat}: {cause.message}"
  | .unknownRecord record => s!"No field metadata registered for record type: {record}"
  | .limitExceeded limit max => s!"{limit.description} exceeds the maximum of {max}"

/-- The client can mend its request. Only a record type that nobody registered
is a fault of the server. -/
def isClientError : QueryError → Bool
  | .unknownRecord _ => false
  | _ => true

end QueryError

end RecordQuery
