import RecordQuery.Filter.Token
import RecordQuery.Time.Written

/-! Reading the token at the front of a text. Its first character tells what kind
it is, and each kind takes as many characters as it can. Main statements: the
characters of a token and the text after it make up the text, and every token
takes at least one character. -/
namespace RecordQuery

open Text

/-- A token at the front of a text, and the text after it. -/
structure LeadingToken where
  kind : TokenKind
  lexeme : List Char
  quoted : Bool
  rest : List Char
deriving DecidableEq, Repr

namespace LeadingToken

/-- The characters that the token takes up. -/
def spelling (t : LeadingToken) : List Char :=
  if t.quoted then '\'' :: t.lexeme ++ ['\''] else t.lexeme

/-- A token written as it is. -/
def bare (kind : TokenKind) (lexeme rest : List Char) : LeadingToken :=
  ⟨kind, lexeme, false, rest⟩

/-! ## The kinds of tokens -/

/-- What stands before the closing quote, and what follows it. A quote that is
written twice does not close. -/
def quotedContent? : List Char → Option (List Char × List Char)
  | [] => none
  | '\'' :: '\'' :: cs =>
    (quotedContent? cs).map fun (content, rest) => ('\'' :: '\'' :: content, rest)
  | '\'' :: cs => some ([], cs)
  | c :: cs => (quotedContent? cs).map fun (content, rest) => (c :: content, rest)

/-- A literal without quotes must not run into one of these. -/
def runsOn (rest : List Char) : Bool :=
  match rest with
  | c :: _ => isNamePart c || c == '-'
  | [] => false

/-- Digits, and a point with digits after it. -/
def numberDigits? (cs : List Char) : Option (List Char × List Char) :=
  let whole := cs.takeWhile Char.isDigit
  match cs.dropWhile Char.isDigit with
  | '.' :: rest =>
    let fraction := rest.takeWhile Char.isDigit
    if fraction.isEmpty then none
    else some (whole ++ '.' :: fraction, rest.dropWhile Char.isDigit)
  | rest => some (whole, rest)

/-- A number; `sign` has been read. -/
def number (sign cs : List Char) : Except LexCause LeadingToken :=
  match numberDigits? cs with
  | none => .error .malformedNumber
  | some (digits, rest) =>
    if runsOn rest then .error .malformedNumber else .ok (bare .number (sign ++ digits) rest)

/-- A timestamp if one can be read, a number otherwise. -/
def timestampOrNumber (cs : List Char) : Except LexCause LeadingToken :=
  match Timestamp.leading? cs with
  | some (spelling, rest) =>
    if runsOn rest then .error .malformedTimestamp else .ok (bare .timestamp spelling rest)
  | none => number [] cs

/-- A literal in quotes; the opening quote has been read. -/
def quotedLiteral (cs : List Char) : Except LexCause LeadingToken :=
  match quotedContent? cs with
  | none => .error .unterminatedString
  | some (content, rest) =>
    .ok ⟨if Timestamp.hasForm content then .timestamp else .string, content, true, rest⟩

/-- An operator that is spelled with letters; its `$` has been read. -/
def namedOperator (cs : List Char) : Except LexCause LeadingToken :=
  let symbol := '$' :: cs.takeWhile Char.isAlpha
  match Operator.ofSymbol? (String.ofList symbol) with
  | some op => .ok (bare (.operator op) symbol (cs.dropWhile Char.isAlpha))
  | none => .error (.unknownOperator (String.ofList symbol))

/-- The kind of a word. -/
def wordKind (word : List Char) : TokenKind :=
  if sameWord word ['a', 'n', 'd'] then .and
  else if sameWord word ['o', 'r'] then .or
  else .name

/-- A name or a keyword. -/
def word (cs : List Char) : LeadingToken :=
  let lexeme := cs.takeWhile isNamePart
  bare (wordKind lexeme) lexeme (cs.dropWhile isNamePart)

/-- A comparison; `first` has been read, and `=` may follow to make it `orEqual`. -/
def comparison (first : Char) (strict orEqual : Comparison) (cs : List Char) : LeadingToken :=
  match cs with
  | '=' :: rest => bare (.operator (.compare orEqual)) [first, '='] rest
  | _ => bare (.operator (.compare strict)) [first] cs

/-- The token that starts with `c` and goes on in `cs`. -/
def read (c : Char) (cs : List Char) : Except LexCause LeadingToken :=
  match c with
  | '(' => .ok (bare .leftParen [c] cs)
  | ')' => .ok (bare .rightParen [c] cs)
  | ',' => .ok (bare .comma [c] cs)
  | '=' => .ok (bare (.operator (.compare .equal)) [c] cs)
  | '>' => .ok (comparison c .greater .greaterOrEqual cs)
  | '<' => .ok (comparison c .less .lessOrEqual cs)
  | '!' =>
    match cs with
    | '=' :: rest => .ok (bare (.operator (.compare .notEqual)) [c, '='] rest)
    | _ => .error (.unexpectedCharacter c)
  | '$' => namedOperator cs
  | '\'' => quotedLiteral cs
  | '-' =>
    match cs with
    | d :: _ => if d.isDigit then number [c] cs else .error (.unexpectedCharacter c)
    | [] => .error (.unexpectedCharacter c)
  | _ =>
    if c.isDigit then timestampOrNumber (c :: cs)
    else if isNameStart c then .ok (word (c :: cs))
    else .error (.unexpectedCharacter c)

/-! ## Nothing is lost

The characters of a token and what follows it make up the text. -/

theorem quotedContent?_append {cs content rest : List Char}
    (h : quotedContent? cs = some (content, rest)) : content ++ '\'' :: rest = cs := by
  induction cs using quotedContent?.induct generalizing content rest with
  | case1 => simp [quotedContent?] at h
  | case2 cs ih =>
    simp only [quotedContent?] at h
    obtain ⟨⟨content', rest'⟩, hq, he⟩ := Option.map_eq_some_iff.mp h
    simp only [Prod.mk.injEq] at he
    rw [← he.1, ← he.2]
    simp [ih hq]
  | case3 cs hne =>
    rw [quotedContent?.eq_3 _ hne] at h
    simp only [Option.some.injEq, Prod.mk.injEq] at h
    simp [← h.1, ← h.2]
  | case4 c cs hne hne' ih =>
    rw [quotedContent?.eq_4 _ _ hne hne'] at h
    obtain ⟨⟨content', rest'⟩, hq, he⟩ := Option.map_eq_some_iff.mp h
    simp only [Prod.mk.injEq] at he
    rw [← he.1, ← he.2]
    simp [ih hq]

theorem numberDigits?_append {cs digits rest : List Char}
    (h : numberDigits? cs = some (digits, rest)) : digits ++ rest = cs := by
  unfold numberDigits? at h
  have hcs := List.takeWhile_append_dropWhile (p := Char.isDigit) (l := cs)
  simp only at h
  split at h
  · rename_i rest' hd
    split at h
    · cases h
    · simp only [Option.some.injEq, Prod.mk.injEq] at h
      rw [← h.1, ← h.2, List.append_assoc, List.cons_append, List.takeWhile_append_dropWhile,
        ← hd, hcs]
  · simp only [Option.some.injEq, Prod.mk.injEq] at h
    rw [← h.1, ← h.2, hcs]

theorem number_append {sign cs : List Char} {t : LeadingToken} (h : number sign cs = .ok t) :
    t.spelling ++ t.rest = sign ++ cs := by
  unfold number at h
  split at h
  · cases h
  · rename_i digits rest hd
    split at h
    · cases h
    · cases h
      simp [spelling, bare, numberDigits?_append hd]

theorem timestampOrNumber_append {cs : List Char} {t : LeadingToken}
    (h : timestampOrNumber cs = .ok t) : t.spelling ++ t.rest = cs := by
  unfold timestampOrNumber at h
  split at h
  · rename_i s rest hs
    split at h
    · cases h
    · cases h
      simp [spelling, bare, Timestamp.leading?_append hs]
  · simpa using number_append h

theorem quotedLiteral_append {cs : List Char} {t : LeadingToken} (h : quotedLiteral cs = .ok t) :
    t.spelling ++ t.rest = '\'' :: cs := by
  unfold quotedLiteral at h
  split at h
  · cases h
  · rename_i content rest hq
    cases h
    simp [spelling, quotedContent?_append hq]

theorem namedOperator_append {cs : List Char} {t : LeadingToken} (h : namedOperator cs = .ok t) :
    t.spelling ++ t.rest = '$' :: cs := by
  unfold namedOperator at h
  simp only at h
  split at h
  · cases h
    simp [spelling, bare]
  · cases h

theorem word_append (cs : List Char) : (word cs).spelling ++ (word cs).rest = cs := by
  simp [word, spelling, bare]

theorem comparison_append (first : Char) (strict orEqual : Comparison) (cs : List Char) :
    (comparison first strict orEqual cs).spelling ++ (comparison first strict orEqual cs).rest =
      first :: cs := by
  unfold comparison
  split <;> simp [spelling, bare]

/-- The token that is read stands at the front of the text. -/
theorem read_append {c : Char} {cs : List Char} {t : LeadingToken} (h : read c cs = .ok t) :
    t.spelling ++ t.rest = c :: cs := by
  unfold read at h
  split at h
  case h_1 | h_2 | h_3 | h_4 => cases h; simp [spelling, bare]
  case h_5 | h_6 => cases h; exact comparison_append ..
  case h_7 =>
    split at h
    · cases h
      simp [spelling, bare]
    · cases h
  case h_8 => exact namedOperator_append h
  case h_9 => exact quotedLiteral_append h
  case h_10 =>
    split at h
    · split at h
      · simpa using number_append h
      · cases h
    · cases h
  case h_11 =>
    split at h
    · exact timestampOrNumber_append h
    · split at h
      · cases h
        exact word_append _
      · cases h

/-! ## Every token takes a character -/

theorem numberDigits?_ne_nil {c : Char} {cs digits rest : List Char} (hc : c.isDigit = true)
    (h : numberDigits? (c :: cs) = some (digits, rest)) : digits ≠ [] := by
  unfold numberDigits? at h
  simp only [List.takeWhile_cons, List.dropWhile_cons, hc, if_true] at h
  split at h
  · split at h
    · cases h
    · cases h
      simp
  · cases h
    simp

theorem number_spelling_ne_nil {sign cs : List Char} {t : LeadingToken}
    (h : number sign cs = .ok t) (hs : sign ≠ [] ∨ ∃ c, c.isDigit = true ∧ cs.head? = some c) :
    t.spelling ≠ [] := by
  unfold number at h
  split at h
  · cases h
  · rename_i digits rest hd
    split at h
    · cases h
    · cases h
      rcases hs with hs | ⟨c, hc, hcs⟩
      · simp [spelling, bare, hs]
      · cases cs with
        | nil => cases hcs
        | cons c' cs =>
          cases hcs
          simp [spelling, bare, numberDigits?_ne_nil hc hd]

theorem timestampOrNumber_spelling_ne_nil {c : Char} {cs : List Char} {t : LeadingToken}
    (h : timestampOrNumber (c :: cs) = .ok t) (hc : c.isDigit = true) : t.spelling ≠ [] := by
  unfold timestampOrNumber at h
  split at h
  · rename_i s rest hs
    split at h
    · cases h
    · cases h
      obtain ⟨⟨w, rest'⟩, _, he⟩ := Option.map_eq_some_iff.mp hs
      simp only [Prod.mk.injEq] at he
      simp [spelling, bare, ← he.1, Written.spell]
  · exact number_spelling_ne_nil h (.inr ⟨c, hc, rfl⟩)

theorem read_spelling_ne_nil {c : Char} {cs : List Char} {t : LeadingToken}
    (h : read c cs = .ok t) : t.spelling ≠ [] := by
  unfold read at h
  split at h
  case h_1 | h_2 | h_3 | h_4 => cases h; simp [spelling, bare]
  case h_5 | h_6 =>
    cases h
    unfold comparison
    split <;> simp [spelling, bare]
  case h_7 =>
    split at h
    · cases h
      simp [spelling, bare]
    · cases h
  case h_8 =>
    unfold namedOperator at h
    simp only at h
    split at h
    · cases h
      simp [spelling, bare]
    · cases h
  case h_9 =>
    unfold quotedLiteral at h
    split at h
    · cases h
    · cases h
      simp [spelling]
  case h_10 =>
    split at h
    · split at h
      · exact number_spelling_ne_nil h (.inl (by simp))
      · cases h
    · cases h
  case h_11 =>
    split at h
    · rename_i hd
      exact timestampOrNumber_spelling_ne_nil h hd
    · split at h
      · rename_i hs
        cases h
        simp [word, spelling, bare, isNamePart_of_isNameStart hs]
      · cases h

theorem read_rest_length {c : Char} {cs : List Char} {t : LeadingToken} (h : read c cs = .ok t) :
    t.rest.length ≤ cs.length := by
  have hl := congrArg List.length (read_append h)
  have hs := List.length_pos_iff.mpr (read_spelling_ne_nil h)
  simp only [List.length_append, List.length_cons] at hl
  omega

end LeadingToken

end RecordQuery
