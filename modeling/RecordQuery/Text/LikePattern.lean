/-! Patterns for `LIKE … ESCAPE '\'`. In a pattern `%` stands for any text and
`_` for any one character; a backslash takes the meaning from what follows it. -/
namespace RecordQuery.Text.LikePattern

/-- Where in a matched text the searched value has to stand. -/
inductive Place where
  | start
  | finish
  | anywhere
deriving DecidableEq, Repr

/-- The characters that a pattern gives a meaning to. -/
def isSpecial (c : Char) : Bool :=
  c == '%' || c == '_' || c == '\\'

/-- `cs` with every special character made literal. -/
def escape (cs : List Char) : List Char :=
  cs.flatMap fun c => if isSpecial c then ['\\', c] else [c]

/-- The pattern of the texts that have `cs` at the given place. -/
def ofValue (place : Place) (cs : List Char) : List Char :=
  match place with
  | .start => escape cs ++ ['%']
  | .finish => '%' :: escape cs
  | .anywhere => '%' :: (escape cs ++ ['%'])

@[simp] theorem escape_nil : escape [] = [] := rfl

@[simp] theorem escape_cons (c : Char) (cs : List Char) :
    escape (c :: cs) = (if isSpecial c then ['\\', c] else [c]) ++ escape cs := rfl

end RecordQuery.Text.LikePattern
