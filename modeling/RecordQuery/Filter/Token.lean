import RecordQuery.Filter.Operator
import RecordQuery.Text.Ascii

/-! The tokens of the filter language, and why a text may have none. -/
namespace RecordQuery

inductive TokenKind where
  | name
  | operator (op : Operator)
  | string
  | number
  | timestamp
  | and
  | or
  | leftParen
  | rightParen
  | comma
deriving DecidableEq, Repr

/-- What messages call a token of the kind. -/
def TokenKind.description : TokenKind → String
  | .name => "identifier"
  | .operator _ => "operator"
  | .string => "string literal"
  | .number => "number"
  | .timestamp => "timestamp"
  | .and => "AND"
  | .or => "OR"
  | .leftParen => "'('"
  | .rightParen => "')'"
  | .comma => "','"

/-- A unit of filter text. The lexeme of a quoted literal is what stands between
its quotes, where an inner quote is still written twice. -/
structure Token where
  kind : TokenKind
  lexeme : List Char
  quoted : Bool
  /-- The byte of the text at which the token starts. -/
  position : Nat
deriving DecidableEq, Repr

namespace Token

/-- The characters of the text that the token takes up. -/
def spelling (t : Token) : List Char :=
  if t.quoted then '\'' :: t.lexeme ++ ['\''] else t.lexeme

/-- The byte after the last one of the token. -/
def stop (t : Token) : Nat :=
  t.position + Text.byteLength t.spelling

end Token

/-- Why no token can be read. -/
inductive LexCause where
  | unknownOperator (symbol : String)
  | unterminatedString
  | malformedNumber
  | malformedTimestamp
  | unexpectedCharacter (found : Char)
deriving DecidableEq, Repr

def LexCause.message : LexCause → String
  | .unknownOperator symbol => s!"unknown operator '{symbol}'"
  | .unterminatedString => "unterminated string literal"
  | .malformedNumber => "malformed number"
  | .malformedTimestamp => "malformed timestamp"
  | .unexpectedCharacter found => s!"unexpected character '{found}'"

/-- The byte where a token should start, and why there is none. -/
structure LexError where
  position : Nat
  cause : LexCause
deriving DecidableEq, Repr

end RecordQuery
