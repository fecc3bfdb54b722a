import RecordQuery.Filter.Operator

/-! Filter expressions: predicates joined by AND and OR. Parentheses leave no
trace but the shape of the tree. -/
namespace RecordQuery

/-- A combination of leaves. -/
inductive Expr (α : Type) where
  | leaf (a : α)
  | and (left right : Expr α)
  | or (left right : Expr α)
deriving DecidableEq, Repr

namespace Expr

/-- The leaves in the order of the text. -/
def leaves {α : Type} : Expr α → List α
  | .leaf a => [a]
  | .and l r => l.leaves ++ r.leaves
  | .or l r => l.leaves ++ r.leaves

/-- The number of leaves. -/
def size {α : Type} (e : Expr α) : Nat :=
  e.leaves.length

/-- The tree with every leaf replaced. -/
def map {α β : Type} (f : α → β) : Expr α → Expr β
  | .leaf a => .leaf (f a)
  | .and l r => .and (l.map f) (r.map f)
  | .or l r => .or (l.map f) (r.map f)

/-- The tree with every leaf replaced, or the failure of the first leaf that
cannot be. -/
def traverse {α β ε : Type} (f : α → Except ε β) : Expr α → Except ε (Expr β)
  | .leaf a => (f a).map .leaf
  | .and l r => do return .and (← l.traverse f) (← r.traverse f)
  | .or l r => do return .or (← l.traverse f) (← r.traverse f)

end Expr

/-- What a predicate asks of its field, with the values it asks for. Values are
literals as written, or typed values once the field is known. -/
inductive Test (α : Type) where
  | null
  | notNull
  | compare (comparison : Comparison) (value : α)
  | pattern (place : Text.LikePattern.Place) (value : α)
  | isIn (values : List α)
deriving DecidableEq, Repr

namespace Test

def operator {α : Type} : Test α → Operator
  | .null => .null
  | .notNull => .notNull
  | .compare c _ => .compare c
  | .pattern p _ => .pattern p
  | .isIn _ => .isIn

/-- The values in the order of the text. -/
def values {α : Type} : Test α → List α
  | .null | .notNull => []
  | .compare _ v | .pattern _ v => [v]
  | .isIn vs => vs

end Test

/-- How a literal is written. -/
inductive LiteralKind where
  | string
  | number
  | timestamp
  | boolean
deriving DecidableEq, Repr

/-- A value as written. Its text is without quotes, and with a quote inside
only once. -/
structure Literal where
  kind : LiteralKind
  text : List Char
  position : Nat
deriving DecidableEq, Repr

namespace Literal

/-- Each quote twice. -/
def doubleQuotes : List Char → List Char
  | [] => []
  | c :: cs => if c = '\'' then '\'' :: '\'' :: doubleQuotes cs else c :: doubleQuotes cs

/-- Each pair of quotes once. -/
def mergeQuotes : List Char → List Char
  | '\'' :: '\'' :: cs => '\'' :: mergeQuotes cs
  | c :: cs => c :: mergeQuotes cs
  | [] => []

/-- The literal as it would be written in filter text. -/
def display (l : Literal) : List Char :=
  match l.kind with
  | .string => '\'' :: doubleQuotes l.text ++ ['\'']
  | _ => l.text

end Literal

/-- A predicate as written: the name of a field, and what is asked of it. -/
structure Predicate where
  field : String
  position : Nat
  test : Test Literal
deriving DecidableEq, Repr

end RecordQuery
