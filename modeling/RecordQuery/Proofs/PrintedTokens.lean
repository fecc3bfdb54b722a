import RecordQuery.Proofs.TokenSpans
import RecordQuery.Proofs.WrittenLiterals

/-!
# Printed tokens

Tokens that are printed with spaces between them are read back as they were. Which tokens
there are is told here by how they are written, and not by how they are read. Each of
them is read to its end where nothing follows it; and a space, which ends every token, lets
it be read alike where something does.
-/

namespace RecordQuery

open LeadingToken Text

/-! ## Tokens without a place -/

/-- A token, wherever it stands. -/
structure TokenForm where
  kind : TokenKind
  lexeme : List Char
  quoted : Bool
deriving DecidableEq, Repr

def Token.form (t : Token) : TokenForm :=
  ⟨t.kind, t.lexeme, t.quoted⟩

namespace TokenForm

/-- The characters that the token is written with. -/
def spelling (f : TokenForm) : List Char :=
  if f.quoted then '\'' :: f.lexeme ++ ['\''] else f.lexeme

/-- The tokens that can be written. -/
inductive WellFormed : TokenForm → Prop where
  | name {c : Char} {cs : List Char} (start : isNameStart c = true)
      (parts : ∀ d ∈ cs, isNamePart d = true) (notAnd : sameWord (c :: cs) "and".toList = false)
      (notOr : sameWord (c :: cs) "or".toList = false) : WellFormed ⟨.name, c :: cs, false⟩
  | and {word : List Char} (written : sameWord word "and".toList = true) :
      WellFormed ⟨.and, word, false⟩
  | or {word : List Char} (written : sameWord word "or".toList = true) :
      WellFormed ⟨.or, word, false⟩
  | operator (op : Operator) : WellFormed ⟨.operator op, op.symbol.toList, false⟩
  | leftParen : WellFormed ⟨.leftParen, ['('], false⟩
  | rightParen : WellFormed ⟨.rightParen, [')'], false⟩
  | comma : WellFormed ⟨.comma, [','], false⟩
  /-- Without a point there is no fraction. -/
  | number (negative : Bool) {whole fraction : List Char} (some : whole ≠ [])
      (digits : Digits whole) (fractionDigits : Digits fraction) :
      WellFormed ⟨.number, spellNumber negative whole fraction, false⟩
  /-- Quotes occur only doubled. -/
  | quoted (text : List Char) :
      WellFormed ⟨if Timestamp.hasForm (Literal.doubleQuotes text) then .timestamp else .string,
        Literal.doubleQuotes text, true⟩
  | timestamp {cs : List Char} (form : Timestamp.InForm cs)
      (digit : ∃ c, cs.head? = some c ∧ c.isDigit = true) : WellFormed ⟨.timestamp, cs, false⟩

end TokenForm

/-! ## One token -/

/-- What differs from letters in nothing but its case is letters. -/
theorem Text.isNameStart_of_sameWord {word keyword : List Char} (h : sameWord word keyword = true)
    (hletters : ∀ k ∈ keyword, k.toLower.isAlpha = true) : ∀ c ∈ word, isNameStart c = true := by
  intro c hc
  have hlower : word.map Char.toLower = keyword.map Char.toLower := beq_iff_eq.mp h
  have hmem : c.toLower ∈ keyword.map Char.toLower := hlower ▸ List.mem_map_of_mem hc
  obtain ⟨k, hk, heq⟩ := List.mem_map.mp hmem
  have halpha : c.toLower.isAlpha = true := heq ▸ hletters k hk
  have hc : c.isAlpha = true := by
    by_cases hupper : c.val ≥ 'A'.val ∧ c.val ≤ 'Z'.val
    · exact Bool.or_eq_true_iff.mpr (.inl (decide_eq_true hupper))
    · have hsame : c.toLower = c := dif_neg hupper
      rwa [hsame] at halpha
  simp [isNameStart, hc]

namespace LeadingToken

/-- A word is read to its end. -/
theorem read_word {c : Char} {cs : List Char} (hc : isNameStart c = true)
    (hcs : ∀ d ∈ cs, isNamePart d = true) :
    read c cs = .ok (bare (wordKind (c :: cs)) (c :: cs) []) := by
  have hall : ∀ d ∈ c :: cs, isNamePart d = true :=
    List.forall_mem_cons.mpr ⟨isNamePart_of_isNameStart hc, hcs⟩
  rw [read_of_isNameStart hc, word, List.takeWhile_eq_self_iff.mpr hall,
    List.dropWhile_eq_nil_iff.mpr hall]

/-- A keyword is read to its end, in any case. -/
theorem exists_read_keyword {word keyword : List Char} (h : sameWord word keyword = true)
    (hne : keyword ≠ []) (hletters : ∀ k ∈ keyword, k.toLower.isAlpha = true) :
    ∃ c cs, word = c :: cs ∧ read c cs = .ok (bare (wordKind word) word []) := by
  have hstart := isNameStart_of_sameWord h hletters
  cases word with
  | nil =>
    have hlower : [] = keyword.map Char.toLower := beq_iff_eq.mp h
    exact absurd (List.map_eq_nil_iff.mp hlower.symm) hne
  | cons c cs =>
    obtain ⟨hc, hcs⟩ := List.forall_mem_cons.mp hstart
    exact ⟨c, cs, rfl, read_word hc fun d hd => isNamePart_of_isNameStart (hcs d hd)⟩

/-- The symbol of an operator is read to its end. -/
theorem exists_read_symbol (op : Operator) : ∃ c cs, op.symbol.toList = c :: cs ∧
    read c cs = .ok (bare (.operator op) op.symbol.toList []) := by
  rcases op with (c | p | _ | _ | _)
  · cases c <;> exact ⟨_, _, rfl, by decide +kernel⟩
  · cases p <;> exact ⟨_, _, rfl, by decide +kernel⟩
  all_goals exact ⟨_, _, rfl, by decide +kernel⟩

/-- A timestamp is read to its end. -/
theorem read_timestamp {c : Char} {cs : List Char} (h : Timestamp.InForm (c :: cs))
    (hc : c.isDigit = true) : read c cs = .ok (bare .timestamp (c :: cs) []) := by
  have hlead : Timestamp.leading? (c :: cs) = some (c :: cs, []) :=
    Timestamp.leading?_eq_some_iff.mpr ⟨h, (List.append_nil _).symm, fun _ _ _ _ => Nat.zero_le _⟩
  rw [read_of_isDigit hc, timestampOrNumber, hlead]
  rfl

end LeadingToken

namespace TokenForm

/-- **Every token is read to its end** where nothing follows it. -/
theorem WellFormed.exists_read {f : TokenForm} (h : f.WellFormed) : ∃ c cs,
    f.spelling = c :: cs ∧ read c cs = .ok ⟨f.kind, f.lexeme, f.quoted, []⟩ := by
  have hand : ∀ k ∈ "and".toList, k.toLower.isAlpha = true :=
    List.all_eq_true.mp (by decide)
  have hor : ∀ k ∈ "or".toList, k.toLower.isAlpha = true := List.all_eq_true.mp (by decide)
  cases h with
  | @name c cs start parts notAnd notOr =>
    have hkind : wordKind (c :: cs) = .name := by
      show (if sameWord (c :: cs) "and".toList then TokenKind.and
        else if sameWord (c :: cs) "or".toList then .or else .name) = _
      rw [notAnd, notOr]
      rfl
    refine ⟨c, cs, rfl, ?_⟩
    rw [read_word start parts, hkind]
    rfl
  | @and word written =>
    have hkind : wordKind word = .and := if_pos written
    have hread := exists_read_keyword written (by decide) hand
    rwa [hkind] at hread
  | @or word written =>
    have hlower : word.map Char.toLower = "or".toList := beq_iff_eq.mp written
    have hnotAnd : sameWord word "and".toList = false := by
      rw [sameWord, hlower]
      decide
    have hkind : wordKind word = .or := by
      show (if sameWord word "and".toList then TokenKind.and
        else if sameWord word "or".toList then .or else .name) = _
      rw [hnotAnd, written]
      rfl
    have hread := exists_read_keyword written (by decide) hor
    rwa [hkind] at hread
  | operator op => exact exists_read_symbol op
  | leftParen => exact ⟨'(', [], rfl, rfl⟩
  | rightParen => exact ⟨')', [], rfl, rfl⟩
  | comma => exact ⟨',', [], rfl, rfl⟩
  | number negative some digits fractionDigits =>
    exact exists_read_spellNumber negative some digits fractionDigits
  | quoted text => exact ⟨'\'', _, rfl, read_doubleQuotes text⟩
  | timestamp form digit =>
    obtain ⟨c, hhead, hc⟩ := digit
    obtain ⟨cs, rfl⟩ := List.head?_eq_some_iff.mp hhead
    exact ⟨c, cs, rfl, read_timestamp form hc⟩

/-- A token in front of something that does not go on with it. -/
theorem WellFormed.exists_read_append {f : TokenForm} (h : f.WellFormed) {rest : List Char}
    (hrest : Detached rest) : ∃ c cs, f.spelling ++ rest = c :: cs ∧
      read c cs = .ok ⟨f.kind, f.lexeme, f.quoted, rest⟩ := by
  obtain ⟨c, cs, hspelling, hread⟩ := h.exists_read
  refine ⟨c, cs ++ rest, by rw [hspelling, List.cons_append], ?_⟩
  exact read_append_detached hrest hread

end TokenForm

/-! ## Tokens and the spaces behind them -/

theorem Text.Spaces.detached_append {gap : List Char} (h : Spaces gap) (hne : gap ≠ [])
    (rest : List Char) : Detached (gap ++ rest) := by
  obtain ⟨c, gap, rfl⟩ := List.exists_cons_of_ne_nil hne
  refine detached_cons ?_ (gap ++ rest)
  rcases isSpace_iff.mp (spaces_cons.mp h).1 with rfl | rfl | rfl | rfl | rfl
  all_goals decide

namespace Lexed

theorem Consists.spaces {position : Nat} {gap cs : List Char} {ts : List Token} (h : Spaces gap)
    (hcs : Consists (position + byteLength gap) cs ts) : Consists position (gap ++ cs) ts := by
  induction gap generalizing position with
  | nil => exact hcs
  | cons c gap ih =>
    obtain ⟨hc, hgap⟩ := spaces_cons.mp h
    refine (consists_space hc).mpr (ih hgap ?_)
    rwa [byteLength_cons, ← Nat.add_assoc] at hcs

end Lexed

namespace TokenForm

/-- Tokens with what is printed behind each of them. -/
def printed (items : List (TokenForm × List Char)) : List Char :=
  items.flatMap fun (f, gap) => f.spelling ++ gap

/-- Printed tokens are read back, wherever they are printed. -/
theorem exists_consists_printed {items : List (TokenForm × List Char)}
    (hwell : ∀ x ∈ items, x.1.WellFormed) (hspaces : ∀ x ∈ items, Spaces x.2)
    (hapart : ∀ x ∈ items.dropLast, x.2 ≠ []) (position : Nat) :
    ∃ ts, Lexed.Consists position (printed items) ts ∧
      ts.map Token.form = items.map Prod.fst := by
  induction items generalizing position with
  | nil => exact ⟨[], Lexed.consists_nil, rfl⟩
  | cons x items ih =>
    obtain ⟨f, gap⟩ := x
    obtain ⟨hf, hwell⟩ := List.forall_mem_cons.mp hwell
    obtain ⟨hgap, hspaces⟩ := List.forall_mem_cons.mp hspaces
    have hdetached : Detached (gap ++ printed items) := by
      cases items with
      | nil =>
        -- behind the last token there may be nothing
        by_cases hnil : gap = []
        · rw [hnil]
          exact nofun
        · exact hgap.detached_append hnil _
      | cons y items => exact hgap.detached_append (hapart (f, gap) List.mem_cons_self) _
    have hapart : ∀ x ∈ items.dropLast, x.2 ≠ [] := by
      cases items with
      | nil => exact nofun
      | cons y items => exact fun x hx => hapart x (List.mem_cons_of_mem _ hx)
    obtain ⟨c, cs, htext, hread⟩ := hf.exists_read_append hdetached
    obtain ⟨ts, hts, hforms⟩ :=
      ih hwell hspaces hapart (position + byteLength f.spelling + byteLength gap)
    have hprinted : printed ((f, gap) :: items) = c :: cs := by
      rw [← htext, ← List.append_assoc]
      rfl
    refine ⟨⟨f.kind, f.lexeme, f.quoted, position⟩ :: ts, ?_, congrArg (f :: ·) hforms⟩
    rw [hprinted]
    exact (Lexed.consists_token hread).mpr ⟨ts, rfl, .spaces hgap hts⟩

end TokenForm

/-- **Reading undoes printing**, whatever the spacing: of tokens that are printed with spaces
between any two of them, and perhaps around them, each is read back with its kind and its
lexeme, and nothing else is. -/
theorem tokenize_printed {front : List Char} {items : List (TokenForm × List Char)}
    (hwell : ∀ x ∈ items, x.1.WellFormed) (hfront : Spaces front)
    (hspaces : ∀ x ∈ items, Spaces x.2) (hapart : ∀ x ∈ items.dropLast, x.2 ≠ []) :
    ∃ ts, tokenize (String.ofList (front ++ TokenForm.printed items)) = .ok ts ∧
      ts.map Token.form = items.map Prod.fst := by
  obtain ⟨ts, hts, hforms⟩ :=
    TokenForm.exists_consists_printed hwell hspaces hapart (0 + byteLength front)
  have hall : Lexed.Consists 0 (front ++ TokenForm.printed items) ts := .spaces hfront hts
  refine ⟨ts, ?_, hforms⟩
  rw [tokenize, Lexed.ofText, String.toList_ofList, hall]
  rfl

/-- Neighbours that could be taken for one token, or for another one, if no space were there. -/
theorem tokenize_printed_neighbours :
    let items : List (TokenForm × List Char) := [
      (⟨.name, "android.or".toList, false⟩, "\t".toList),
      (⟨.operator (.compare .greater), ">".toList, false⟩, " ".toList),
      (⟨.operator (.compare .equal), "=".toList, false⟩, "\n".toList),
      (⟨.number, "-2020".toList, false⟩, " ".toList),
      (⟨.number, "01.01".toList, false⟩, "\x0c ".toList),
      (⟨.timestamp, "2020-01-01".toList, false⟩, "  ".toList),
      (⟨.and, "aNd".toList, false⟩, "\r\n".toList),
      (⟨.operator .null, "$null".toList, false⟩, " ".toList),
      (⟨.string, "it''s''".toList, true⟩, " ".toList),
      (⟨.timestamp, "2020-01-01T10:30".toList, true⟩, [])]
    (∀ x ∈ items, x.1.WellFormed) ∧ Spaces "\n ".toList ∧ (∀ x ∈ items, Spaces x.2) ∧
      (∀ x ∈ items.dropLast, x.2 ≠ []) ∧
      ∃ ts, tokenize (String.ofList ("\n ".toList ++ TokenForm.printed items)) = .ok ts ∧
        ts.map Token.form = items.map Prod.fst := by
  intro items
  have hname : TokenForm.WellFormed ⟨.name, "android.or".toList, false⟩ :=
    .name rfl (List.all_eq_true.mp (by decide)) (by decide) (by decide)
  have hdigits (ds : List Char) (h : ds.all Char.isDigit = true) : Digits ds :=
    List.all_eq_true.mp h
  have hgreater := TokenForm.WellFormed.operator (.compare .greater)
  have hequal := TokenForm.WellFormed.operator (.compare .equal)
  have hsigned : TokenForm.WellFormed ⟨.number, "-2020".toList, false⟩ :=
    .number true (by decide) (show Digits "2020".toList from hdigits _ (by decide)) digits_nil
  have hpoint : TokenForm.WellFormed ⟨.number, "01.01".toList, false⟩ :=
    .number false (by decide) (show Digits "01".toList from hdigits _ (by decide))
      (show Digits "01".toList from hdigits _ (by decide))
  have hlead : Timestamp.leading? "2020-01-01".toList = some ("2020-01-01".toList, []) := by
    decide +kernel
  have hdate : TokenForm.WellFormed ⟨.timestamp, "2020-01-01".toList, false⟩ :=
    .timestamp (Timestamp.inForm_of_leading? hlead) ⟨'2', rfl, rfl⟩
  have hand : TokenForm.WellFormed ⟨.and, "aNd".toList, false⟩ := .and (by decide)
  have hnull := TokenForm.WellFormed.operator .null
  have hstring : TokenForm.WellFormed ⟨.string, "it''s''".toList, true⟩ := .quoted "it's'".toList
  have htime : TokenForm.WellFormed ⟨.timestamp, "2020-01-01T10:30".toList, true⟩ :=
    .quoted "2020-01-01T10:30".toList
  have hwell : ∀ x ∈ items, x.1.WellFormed := by
    simp only [items, List.forall_mem_cons]
    exact ⟨hname, hgreater, hequal, hsigned, hpoint, hdate, hand, hnull, hstring, htime, nofun⟩
  have hfront : Spaces "\n ".toList := by decide
  have hspaces : ∀ x ∈ items, Spaces x.2 := by decide
  have hapart : ∀ x ∈ items.dropLast, x.2 ≠ [] := by decide
  exact ⟨hwell, hfront, hspaces, hapart, tokenize_printed hwell hfront hspaces hapart⟩

end RecordQuery
