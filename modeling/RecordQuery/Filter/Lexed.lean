import RecordQuery.Filter.LeadingToken

/-! From filter text to its tokens. Reading stops at the first place where no
token starts, and what was read before it is kept: an error that lies earlier
in the text has to win. -/
namespace RecordQuery

open Text

/-- The tokens of a text up to its end or its first error. -/
structure Lexed where
  tokens : List Token
  failure : Option LexError
deriving DecidableEq, Repr

namespace Lexed

/-- The tokens of `cs`, whose first character is at `position`. -/
def ofChars (position : Nat) (cs : List Char) : Lexed :=
  match cs with
  | [] => ⟨[], none⟩
  | c :: cs =>
    if isSpace c then
      ofChars (position + c.utf8Size) cs
    else
      match h : LeadingToken.read c cs with
      | .error cause => ⟨[], some ⟨position, cause⟩⟩
      | .ok t =>
        have := LeadingToken.read_rest_length h
        let token : Token := ⟨t.kind, t.lexeme, t.quoted, position⟩
        let following := ofChars token.stop t.rest
        ⟨token :: following.tokens, following.failure⟩
termination_by cs.length

/-- The tokens of a filter text. -/
def ofText (text : String) : Lexed :=
  ofChars 0 text.toList

/-- All tokens, if the text has nothing but tokens. -/
def complete (l : Lexed) : Except LexError (List Token) :=
  match l.failure with
  | none => .ok l.tokens
  | some e => .error e

end Lexed

/-- The tokens of a filter text, if it has nothing but tokens. -/
def tokenize (text : String) : Except LexError (List Token) :=
  (Lexed.ofText text).complete

end RecordQuery
