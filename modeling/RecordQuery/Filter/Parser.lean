import RecordQuery.Filter.Expr
import RecordQuery.Filter.Lexed
import RecordQuery.QueryError

/-! From tokens to the expression they make up.

    expr      := and_expr (OR and_expr)*
    and_expr  := term (AND term)*
    term      := '(' expr ')' | predicate
    predicate := name ('$null' | '$nn' | op literal | '$in' values)
    values    := literal | '(' literal (',' literal)* ')'

One token is taken at a time. A state says what may come next and keeps what has
been read, so an error always lies at the first token that cannot follow. The
limits are checked by the token that would exceed them. Fields are not looked up
here. -/
namespace RecordQuery

open Text

/-- The literal that a token is, if it is one. -/
def Token.literal? (t : Token) : Option Literal :=
  let ofKind (kind : LiteralKind) : Literal := ⟨kind, Literal.mergeQuotes t.lexeme, t.position⟩
  match t.kind with
  | .string => some (ofKind .string)
  | .number => some (ofKind .number)
  | .timestamp => some (ofKind .timestamp)
  | .name =>
    if sameWord t.lexeme ['t', 'r', 'u', 'e'] || sameWord t.lexeme ['f', 'a', 'l', 's', 'e'] then
      some (ofKind .boolean)
    else none
  | _ => none

namespace Parser

/-- The expressions that wait, at one level of parentheses, for the term that
comes next. -/
structure Pending where
  /-- The left side of the last OR. -/
  alternatives : Option (Expr Predicate)
  /-- The left side of the last AND after it. -/
  conditions : Option (Expr Predicate)
deriving DecidableEq, Repr

namespace Pending

/-- Nothing waits. -/
def none : Pending := ⟨.none, .none⟩

/-- The term with what an AND joined it to. -/
def conjoin (p : Pending) (term : Expr Predicate) : Expr Predicate :=
  match p.conditions with
  | some left => .and left term
  | .none => term

/-- The term with all that waited for it. -/
def close (p : Pending) (term : Expr Predicate) : Expr Predicate :=
  match p.alternatives with
  | some left => .or left (p.conjoin term)
  | .none => p.conjoin term

end Pending

/-- What has to come next. -/
inductive Expecting where
  | term
  | operator (field : Token)
  | compared (field : Token) (comparison : Comparison)
  | matched (field : Token) (place : LikePattern.Place)
  | values (field : Token)
  | listValue (field : Token) (opened : Nat) (read : List Literal)
  | listEnd (field : Token) (opened : Nat) (read : List Literal)
  /-- AND, OR, a closing parenthesis or the end, after this term. -/
  | connective (term : Expr Predicate)
deriving DecidableEq, Repr

/-- A parenthesis that is open: where it stands, and what waits outside. -/
structure Group where
  opened : Nat
  outside : Pending
deriving DecidableEq, Repr

/-- What has been read. -/
structure State where
  expecting : Expecting
  pending : Pending
  /-- The open parentheses, the innermost first. -/
  groups : List Group
  /-- The number of fields named so far. -/
  predicates : Nat
deriving DecidableEq, Repr

/-- Nothing has been read. -/
def State.start : State := ⟨.term, .none, [], 0⟩

/-- The predicate on the field that a token names. -/
def predicate (field : Token) (test : Test Literal) : Expr Predicate :=
  .leaf ⟨String.ofList field.lexeme, field.position, test⟩

/-- What has to come after a field and an operator. -/
def afterOperator (field : Token) : Operator → Expecting
  | .null => .connective (predicate field .null)
  | .notNull => .connective (predicate field .notNull)
  | .compare c => .compared field c
  | .pattern p => .matched field p
  | .isIn => .values field

def fail {α : Type} (position : Nat) (cause : ParseCause) : Except QueryError α :=
  .error (.parse ⟨position, cause⟩)

/-- The literal that an operator takes. -/
def literalFor (op : Operator) (t : Token) : Except QueryError Literal :=
  match t.literal? with
  | some l => .ok l
  | none => fail t.position (.unexpectedValue op t.kind)

/-- Takes a token where a term has to come. -/
def stepTerm (limits : Limits) (s : State) (t : Token) : Except QueryError State :=
  match t.kind with
  | .leftParen =>
    if limits.depth ≤ s.groups.length then .error (.limitExceeded .depth limits.depth)
    else .ok { s with pending := .none, groups := ⟨t.position, s.pending⟩ :: s.groups }
  | .name =>
    if limits.predicates ≤ s.predicates then
      .error (.limitExceeded .predicates limits.predicates)
    else .ok { s with expecting := .operator t, predicates := s.predicates + 1 }
  | found => fail t.position (.unexpectedTerm found)

/-- Takes a token after the term `e`. -/
def stepConnective (s : State) (e : Expr Predicate) (t : Token) : Except QueryError State :=
  match t.kind, s.groups with
  | .and, _ =>
    .ok { s with expecting := .term, pending := ⟨s.pending.alternatives, some (s.pending.conjoin e)⟩ }
  | .or, _ => .ok { s with expecting := .term, pending := ⟨some (s.pending.close e), none⟩ }
  | .rightParen, group :: groups =>
    .ok { s with
      expecting := .connective (s.pending.close e)
      pending := group.outside
      groups := groups }
  | .rightParen, [] => fail t.position .unopenedParen
  | _, _ :: _ => fail t.position .unexpectedInGroup
  | found, [] => fail t.position (.trailingToken found)

/-- Takes one token. -/
def step (limits : Limits) (s : State) (t : Token) : Except QueryError State :=
  match s.expecting with
  | .term => stepTerm limits s t
  | .operator field =>
    match t.kind with
    | .operator op => .ok { s with expecting := afterOperator field op }
    | _ => fail t.position (.missingOperator (String.ofList field.lexeme))
  | .compared field c => do
    let l ← literalFor (.compare c) t
    return { s with expecting := .connective (predicate field (.compare c l)) }
  | .matched field p => do
    let l ← literalFor (.pattern p) t
    return { s with expecting := .connective (predicate field (.pattern p l)) }
  | .values field =>
    if t.kind = .leftParen then .ok { s with expecting := .listValue field t.position [] }
    else do
      let l ← literalFor .isIn t
      return { s with expecting := .connective (predicate field (.isIn [l])) }
  | .listValue field opened read => do
    let l ← literalFor .isIn t
    if limits.listValues ≤ read.length then .error (.limitExceeded .listValues limits.listValues)
    else return { s with expecting := .listEnd field opened (read ++ [l]) }
  | .listEnd field opened read =>
    match t.kind with
    | .comma => .ok { s with expecting := .listValue field opened read }
    | .rightParen => .ok { s with expecting := .connective (predicate field (.isIn read)) }
    | _ => fail t.position .unexpectedInList
  | .connective e => stepConnective s e t

/-- The expression, when the text ends at byte `stop`. -/
def finish (stop : Nat) (s : State) : Except QueryError (Expr Predicate) :=
  match s.expecting with
  | .term => fail stop .missingTerm
  | .operator field => fail stop (.missingOperator (String.ofList field.lexeme))
  | .compared _ c => fail stop (.missingValue (.compare c))
  | .matched _ p => fail stop (.missingValue (.pattern p))
  | .values _ => fail stop (.missingValue .isIn)
  | .listValue _ _ _ => fail stop (.missingValue .isIn)
  | .listEnd _ opened _ => fail opened .unclosedParen
  | .connective e =>
    match s.groups with
    | [] => .ok (s.pending.close e)
    | group :: _ => fail group.opened .unclosedParen

/-- Takes tokens one after the other. -/
def run (limits : Limits) (s : State) (tokens : List Token) : Except QueryError State :=
  tokens.foldlM (step limits) s

end Parser

/-- The expression of a text of `length` bytes with these tokens. -/
def Lexed.parse (limits : Limits) (length : Nat) (l : Lexed) : Except QueryError (Expr Predicate) := do
  let s ← Parser.run limits .start l.tokens
  match l.failure with
  | some e => .error (.lex e)
  | none =>
    if l.tokens.isEmpty then Parser.fail 0 .emptyFilter
    else Parser.finish length s

/-- The expression that a filter text writes. -/
def parse (limits : Limits) (text : String) : Except QueryError (Expr Predicate) :=
  (Lexed.ofText text).parse limits (byteLength text.toList)

end RecordQuery
