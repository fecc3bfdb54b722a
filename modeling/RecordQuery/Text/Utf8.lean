/-! UTF-8. Reading bytes gives their characters, or says how many bytes at the
front are a valid text. -/
namespace RecordQuery.Text

/-- The bytes of `cs` in UTF-8. -/
def encodeUtf8 (cs : List Char) : List UInt8 :=
  cs.flatMap String.utf8EncodeChar

/-- The character whose encoding the bytes begin with. No encoding is longer
than four bytes, so no more of them are looked at. -/
def leadingChar? (bytes : List UInt8) : Option Char :=
  (bytes.take 4).toByteArray.utf8DecodeChar? 0

/-- The text that the bytes encode. Where they encode none, the error is the
length of the longest run of whole characters at their front. -/
def decodeUtf8 (bytes : List UInt8) : Except Nat (List Char) :=
  if bytes.isEmpty then
    .ok []
  else
    match leadingChar? bytes with
    | none => .error 0
    | some c =>
      match decodeUtf8 (bytes.drop c.utf8Size) with
      | .ok cs => .ok (c :: cs)
      | .error n => .error (c.utf8Size + n)
termination_by bytes.length
decreasing_by
  have hpos := c.utf8Size_pos
  cases bytes with
  | nil => simp at *
  | cons b rest => simp only [List.length_drop, List.length_cons]; omega

end RecordQuery.Text
