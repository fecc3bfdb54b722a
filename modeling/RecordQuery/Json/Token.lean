/-! The tokens of JSON text. Where the text stops being JSON there is one last
token that says so. -/
namespace RecordQuery.Json

inductive Token where
  | openObject
  | closeObject
  | openArray
  | closeArray
  | colon
  | comma
  | null
  | bool (b : Bool)
  | number (digits : List Char)
  /-- A string has no value if half of a surrogate pair is escaped in it. -/
  | string (value : Option String)
  | fault
deriving DecidableEq, Repr

/-- Blanks between tokens. -/
def isSpace (c : Char) : Bool :=
  c == ' ' || c == '\t' || c == '\n' || c == '\r'

/-! ## Strings -/

/-- What stands inside a string: a character, or an escaped UTF-16 unit. -/
inductive Piece where
  | char (c : Char)
  | unit (n : Nat)
deriving DecidableEq, Repr

/-- The character that a backslash and `c` stand for. -/
def shortEscape? (c : Char) : Option Char :=
  match c with
  | '"' | '\\' | '/' => some c
  | 'b' => some '\x08'
  | 'f' => some '\x0c'
  | 'n' => some '\n'
  | 'r' => some '\r'
  | 't' => some '\t'
  | _ => none

def hexValue? (c : Char) : Option Nat :=
  let n := c.toNat
  if 48 ≤ n ∧ n ≤ 57 then some (n - 48)
  else if 65 ≤ n ∧ n ≤ 70 then some (n - 55)
  else if 97 ≤ n ∧ n ≤ 102 then some (n - 87)
  else none

/-- The number that four hexadecimal digits write. -/
def hexUnit? (a b c d : Char) : Option Nat := do
  return (← hexValue? a) * 4096 + (← hexValue? b) * 256 + (← hexValue? c) * 16 + (← hexValue? d)

/-- The pieces before the closing quote, and what follows it. -/
def pieces? : List Char → Option (List Piece × List Char)
  | [] => none
  | '"' :: cs => some ([], cs)
  | '\\' :: 'u' :: a :: b :: c :: d :: cs =>
    match hexUnit? a b c d, pieces? cs with
    | some n, some (ps, rest) => some (.unit n :: ps, rest)
    | _, _ => none
  | '\\' :: e :: cs =>
    match shortEscape? e, pieces? cs with
    | some c, some (ps, rest) => some (.char c :: ps, rest)
    | _, _ => none
  | c :: cs =>
    if c.toNat < 32 then none
    else
      match pieces? cs with
      | some (ps, rest) => some (.char c :: ps, rest)
      | none => none

/-- The characters that pieces stand for. Two units may make up one character. -/
def charsOfPieces? : List Piece → Option (List Char)
  | [] => some []
  | .char c :: ps => (charsOfPieces? ps).map (c :: ·)
  | .unit high :: .unit low :: ps =>
    if 0xD800 ≤ high ∧ high < 0xDC00 then
      if 0xDC00 ≤ low ∧ low < 0xE000 then
        (charsOfPieces? ps).map
          (Char.ofNat (0x10000 + (high - 0xD800) * 0x400 + (low - 0xDC00)) :: ·)
      else none
    else if 0xDC00 ≤ high ∧ high < 0xE000 then none
    else (charsOfPieces? (.unit low :: ps)).map (Char.ofNat high :: ·)
  | .unit n :: ps =>
    if 0xD800 ≤ n ∧ n < 0xE000 then none
    else (charsOfPieces? ps).map (Char.ofNat n :: ·)

/-! ## Numbers -/

/-- The digits at the front, at least one, and what follows them. -/
def someDigits? (cs : List Char) : Option (List Char × List Char) :=
  match cs with
  | c :: _ =>
    if c.isDigit then some (cs.takeWhile Char.isDigit, cs.dropWhile Char.isDigit) else none
  | [] => none

/-- An integer part: zero, or digits that do not start with zero. -/
def wholePart? (cs : List Char) : Option (List Char × List Char) :=
  match someDigits? cs with
  | some (digits, rest) =>
    if digits.head? = some '0' ∧ digits.length ≠ 1 then none else some (digits, rest)
  | none => none

/-- A point and digits, if a point comes next. -/
def fractionPart? (cs : List Char) : Option (List Char × List Char) :=
  match cs with
  | '.' :: rest => (someDigits? rest).map fun (digits, rest) => ('.' :: digits, rest)
  | _ => some ([], cs)

/-- The digits of an exponent, after a sign. -/
def signedDigits? (cs : List Char) : Option (List Char × List Char) :=
  match cs with
  | '+' :: rest => (someDigits? rest).map fun (digits, rest) => ('+' :: digits, rest)
  | '-' :: rest => (someDigits? rest).map fun (digits, rest) => ('-' :: digits, rest)
  | _ => someDigits? cs

/-- An exponent, if one comes next. -/
def exponentPart? (cs : List Char) : Option (List Char × List Char) :=
  match cs with
  | 'e' :: rest => (signedDigits? rest).map fun (digits, rest) => ('e' :: digits, rest)
  | 'E' :: rest => (signedDigits? rest).map fun (digits, rest) => ('E' :: digits, rest)
  | _ => some ([], cs)

/-- A number without its sign. -/
def magnitude? (cs : List Char) : Option (List Char × List Char) := do
  let (whole, rest) ← wholePart? cs
  let (fraction, rest) ← fractionPart? rest
  let (exponent, rest) ← exponentPart? rest
  return (whole ++ fraction ++ exponent, rest)

/-- A number. -/
def number? (cs : List Char) : Option (List Char × List Char) :=
  match cs with
  | '-' :: rest => (magnitude? rest).map fun (digits, rest) => ('-' :: digits, rest)
  | _ => magnitude? cs

/-! ## The text -/

/-- The token at the front of a text that starts with `c`, and what follows it. -/
def leadingToken? (c : Char) (cs : List Char) : Option (Token × List Char) :=
  match c with
  | '\x7b' => some (.openObject, cs)
  | '\x7d' => some (.closeObject, cs)
  | '[' => some (.openArray, cs)
  | ']' => some (.closeArray, cs)
  | ':' => some (.colon, cs)
  | ',' => some (.comma, cs)
  | '"' =>
    (pieces? cs).map fun (ps, rest) => (.string ((charsOfPieces? ps).map String.ofList), rest)
  | 'n' =>
    match cs with
    | 'u' :: 'l' :: 'l' :: rest => some (.null, rest)
    | _ => none
  | 't' =>
    match cs with
    | 'r' :: 'u' :: 'e' :: rest => some (.bool true, rest)
    | _ => none
  | 'f' =>
    match cs with
    | 'a' :: 'l' :: 's' :: 'e' :: rest => some (.bool false, rest)
    | _ => none
  | _ => (number? (c :: cs)).map fun (digits, rest) => (.number digits, rest)

/-! ## Tokens take characters -/

theorem pieces?_length {cs rest : List Char} {ps : List Piece}
    (h : pieces? cs = some (ps, rest)) : rest.length ≤ cs.length := by
  fun_induction pieces? cs generalizing ps rest with
  | case1 | case4 | case6 | case7 | case9 => cases h
  | case2 cs =>
    cases h
    simp
  | case3 a b c d cs n ps rest hr hn ih =>
    cases h
    have := ih hr
    simp only [List.length_cons]
    omega
  | case5 e cs hu c ps rest hr hc ih =>
    cases h
    have := ih hr
    simp only [List.length_cons]
    omega
  | case8 c cs hq hu he hc ps rest hr ih =>
    cases h
    have := ih hr
    simp only [List.length_cons]
    omega

theorem someDigits?_length {cs digits rest : List Char}
    (h : someDigits? cs = some (digits, rest)) : rest.length < cs.length := by
  unfold someDigits? at h
  split at h
  · rename_i c cs
    split at h
    · rename_i hc
      cases h
      rw [List.dropWhile_cons_of_pos hc]
      exact Nat.lt_succ_of_le (List.dropWhile_suffix _).length_le
    · cases h
  · cases h

theorem fractionPart?_length {cs digits rest : List Char}
    (h : fractionPart? cs = some (digits, rest)) : rest.length ≤ cs.length := by
  unfold fractionPart? at h
  split at h
  · obtain ⟨⟨digits', rest'⟩, hd, he⟩ := Option.map_eq_some_iff.mp h
    cases he
    have := someDigits?_length hd
    simp only [List.length_cons]
    omega
  · cases h
    exact Nat.le_refl _

theorem signedDigits?_length {cs digits rest : List Char}
    (h : signedDigits? cs = some (digits, rest)) : rest.length ≤ cs.length := by
  unfold signedDigits? at h
  split at h
  case h_3 => exact Nat.le_of_lt (someDigits?_length h)
  all_goals
    obtain ⟨⟨digits', rest'⟩, hd, he⟩ := Option.map_eq_some_iff.mp h
    cases he
    have := someDigits?_length hd
    simp only [List.length_cons]
    omega

theorem exponentPart?_length {cs digits rest : List Char}
    (h : exponentPart? cs = some (digits, rest)) : rest.length ≤ cs.length := by
  unfold exponentPart? at h
  split at h
  case h_3 =>
    cases h
    exact Nat.le_refl _
  all_goals
    obtain ⟨⟨digits', rest'⟩, hd, he⟩ := Option.map_eq_some_iff.mp h
    cases he
    have := signedDigits?_length hd
    simp only [List.length_cons]
    omega

theorem magnitude?_length {cs digits rest : List Char}
    (h : magnitude? cs = some (digits, rest)) : rest.length < cs.length := by
  unfold magnitude? at h
  obtain ⟨⟨whole, rest₁⟩, hw, h⟩ := Option.bind_eq_some_iff.mp h
  obtain ⟨⟨fraction, rest₂⟩, hf, h⟩ := Option.bind_eq_some_iff.mp h
  obtain ⟨⟨exponent, rest₃⟩, he, h⟩ := Option.bind_eq_some_iff.mp h
  cases h
  have hw' : rest₁.length < cs.length := by
    unfold wholePart? at hw
    split at hw
    · rename_i hd
      split at hw
      · cases hw
      · cases hw
        exact someDigits?_length hd
    · cases hw
  have := fractionPart?_length hf
  have := exponentPart?_length he
  omega

theorem number?_length {cs digits rest : List Char} (h : number? cs = some (digits, rest)) :
    rest.length < cs.length := by
  unfold number? at h
  split at h
  · obtain ⟨⟨digits', rest'⟩, hd, he⟩ := Option.map_eq_some_iff.mp h
    cases he
    have := magnitude?_length hd
    simp only [List.length_cons]
    omega
  · exact magnitude?_length h

theorem leadingToken?_length {c : Char} {cs rest : List Char} {t : Token}
    (h : leadingToken? c cs = some (t, rest)) : rest.length ≤ cs.length := by
  unfold leadingToken? at h
  split at h
  case h_1 | h_2 | h_3 | h_4 | h_5 | h_6 => cases h; exact Nat.le_refl _
  case h_7 =>
    obtain ⟨⟨ps, rest'⟩, hp, he⟩ := Option.map_eq_some_iff.mp h
    cases he
    exact pieces?_length hp
  case h_11 =>
    obtain ⟨⟨digits, rest'⟩, hn, he⟩ := Option.map_eq_some_iff.mp h
    cases he
    exact Nat.le_of_lt_succ (number?_length hn)
  all_goals
    split at h
    · cases h
      simp only [List.length_cons]
      omega
    · cases h

/-- The tokens of a text, the last one being a fault if the text stops being JSON. -/
def tokens (cs : List Char) : List Token :=
  match cs with
  | [] => []
  | c :: cs =>
    if isSpace c then tokens cs
    else
      match h : leadingToken? c cs with
      | none => [.fault]
      | some (t, rest) =>
        have := leadingToken?_length h
        t :: tokens rest
termination_by cs.length

end RecordQuery.Json
