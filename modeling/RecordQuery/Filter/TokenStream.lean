import RecordQuery.Filter.LeadingToken

/-! Filter text that is read one token at a time. What stands behind a token is not
looked at before the next one is asked for. The end of the text, or the first place
where no token starts, ends the reading for good. -/
namespace RecordQuery

open Text

/-- A text of which some tokens have been read. -/
structure TokenStream where
  /-- The byte of the text at which `rest` starts. -/
  position : Nat
  rest : List Char
  /-- The end of the text, or an error, has been met. -/
  ended : Bool
deriving DecidableEq, Repr

namespace TokenStream

/-- A text of which nothing has been read. -/
def ofText (text : String) : TokenStream :=
  ⟨0, text.toList, false⟩

/-- The stream behind the spaces that it goes on with. -/
def skipSpace (s : TokenStream) : TokenStream :=
  { s with
    position := s.position + byteLength (s.rest.takeWhile isSpace)
    rest := s.rest.dropWhile isSpace }

/-- The next token, or the error in its place, and the stream behind it. -/
def next (s : TokenStream) : Option (Except LexError Token) × TokenStream :=
  if s.ended then (none, s)
  else
    let s := s.skipSpace
    match s.rest with
    | [] => (none, { s with ended := true })
    | c :: cs =>
      match LeadingToken.read c cs with
      | .error cause => (some (.error ⟨s.position, cause⟩), { s with ended := true })
      | .ok t =>
        let token : Token := ⟨t.kind, t.lexeme, t.quoted, s.position⟩
        (some (.ok token), { s with position := token.stop, rest := t.rest })

/-- What the call with this number gives, counted from zero. -/
def answer (s : TokenStream) : Nat → Option (Except LexError Token)
  | 0 => s.next.1
  | n + 1 => s.next.2.answer n

end TokenStream

end RecordQuery
