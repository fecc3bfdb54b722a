import RecordQuery.Proofs.ParserRuns
import RecordQuery.Proofs.ReadTokens

/-!
# Displayed literals

Messages show a literal as it would be written in filter text, and behind an operator that takes
one value it is read back from there: the same kind and the same text, whatever the literal
looked like in the text that it comes from. There is one exception. Quotes may hold a timestamp
with digits of any script, and timestamps are shown without quotes; but without quotes, no token
begins with a digit that is not an ASCII digit.
-/

namespace RecordQuery

open Grammar Text

/-! ## Digits that begin no token -/

namespace Text

/-- The ASCII characters have no other decimal digits than the ASCII digits. -/
theorem isDigit_of_isDecimalDigit {c : Char} (h : isDecimalDigit c = true) (hc : c.toNat < 128) :
    c.isDigit = true := by
  obtain ⟨first, hfirst, hrange⟩ := List.any_eq_true.mp h
  simp only [Bool.and_eq_true, decide_eq_true_eq] at hrange
  have hzero : ∀ n ∈ digitZeros, n < 128 → n = '0'.toNat := by decide
  obtain rfl := hzero first hfirst (Nat.lt_of_le_of_lt hrange.1 hc)
  simp only [Char.isDigit, Bool.and_eq_true, decide_eq_true_eq, ge_iff_le, UInt32.le_iff_toNat_le]
  exact hrange

theorem toNat_lt_of_isNameStart {c : Char} (h : isNameStart c = true) : c.toNat < 128 := by
  rcases Bool.or_eq_true_iff.mp h with hletter | hline
  · rcases Bool.or_eq_true_iff.mp hletter with hupper | hlower
    · have hle : 'A'.val ≤ c.val ∧ c.val ≤ 'Z'.val := of_decide_eq_true hupper
      exact Nat.lt_of_le_of_lt (UInt32.le_iff_toNat_le.mp hle.2) (by decide)
    · have hle : c.val ≤ 'z'.val := of_decide_eq_true (Bool.and_eq_true_iff.mp hlower).2
      exact Nat.lt_of_le_of_lt (UInt32.le_iff_toNat_le.mp hle) (by decide)
  · rw [beq_iff_eq.mp hline]
    decide

theorem not_isSpace_of_isDecimalDigit {c : Char} (h : isDecimalDigit c = true) :
    ¬ isSpace c = true := by
  intro hspace
  have hseparator : c ∈ separators := by
    rcases isSpace_iff.mp hspace with rfl | rfl | rfl | rfl | rfl
    all_goals decide
  rw [inside_isDecimalDigit c hseparator] at h
  cases h

end Text

/-- No token begins with a decimal digit that is not an ASCII digit. -/
theorem LeadingToken.read_of_isDecimalDigit {c : Char} (h : isDecimalDigit c = true)
    (hc : c.isDigit = false) (cs : List Char) : read c cs = .error (.unexpectedCharacter c) := by
  have hbeyond : ¬ c.toNat < 128 := fun hlt => by
    rw [isDigit_of_isDecimalDigit h hlt] at hc
    cases hc
  have hname : ¬ isNameStart c = true := fun hs => hbeyond (toNat_lt_of_isNameStart hs)
  unfold read
  split
  case h_11 => rw [hc, if_neg Bool.false_ne_true, if_neg hname]
  all_goals exact absurd (by decide) hbeyond

/-! ## Display -/

/-- The literal is no timestamp that begins with a digit of another script than ASCII. -/
def Literal.Rereadable (l : Literal) : Prop :=
  l.kind = .timestamp → ∃ c, l.text.head? = some c ∧ c.isDigit = true

/-- A literal keeps its kind and its text where its token stands elsewhere. -/
theorem Grammar.Value.copy {t t' : Token} {l : Literal} (h : Value t l) (hkind : t'.kind = t.kind)
    (hlexeme : t'.lexeme = t.lexeme) : Value t' ⟨l.kind, l.text, t'.position⟩ := by
  cases h with
  | string kind => exact hlexeme ▸ .string (hkind.trans kind)
  | number kind => exact hlexeme ▸ .number (hkind.trans kind)
  | timestamp kind => exact hlexeme ▸ .timestamp (hkind.trans kind)
  | boolean kind word => exact hlexeme ▸ .boolean (hkind.trans kind) (hlexeme ▸ word)

namespace TokenForm

/-- Only strings have quotes in them. -/
theorem WellFormed.quote_not_mem {f : TokenForm} (h : f.WellFormed)
    (hkind : f.kind = .name ∨ f.kind = .number ∨ f.kind = .timestamp) : '\'' ∉ f.lexeme := by
  rcases hkind with hkind | hkind | hkind
  · obtain ⟨c, cs, hc, hcs, -, -, rfl⟩ := h.exists_name hkind
    intro hmem
    rcases List.mem_cons.mp hmem with rfl | hmem
    · cases hc
    · cases hcs _ hmem
  · obtain ⟨negative, whole, fraction, -, hwhole, hfraction, rfl⟩ := h.exists_number hkind
    exact Datum.quote_not_mem_spellNumber negative hwhole hfraction
  · exact (h.inForm hkind).quote_not_mem

variable {t : Token} {l : Literal}

/-- Other literals than strings display as they were written, but for quotes around them. -/
theorem WellFormed.display_eq (h : t.form.WellFormed) (hvalue : Value t l)
    (hkind : l.kind ≠ .string) : l.text = t.lexeme ∧ l.display = t.lexeme := by
  have hquote : '\'' ∉ t.lexeme := by
    refine h.quote_not_mem ?_
    cases hvalue with
    | string => exact absurd rfl hkind
    | number kind => exact .inr (.inl kind)
    | timestamp kind => exact .inr (.inr kind)
    | boolean kind => exact .inl kind
  have htext : l.text = t.lexeme := by
    cases hvalue with
    | _ => exact Literal.mergeQuotes_of_not_mem hquote
  refine ⟨htext, ?_⟩
  rw [Literal.display, ← htext]
  split
  · exact absurd ‹_› hkind
  · rfl

/-- **What a literal displays as is a token** of the same kind, with the same lexeme. -/
theorem WellFormed.exists_display (h : t.form.WellFormed) (hvalue : Value t l)
    (hl : l.Rereadable) : ∃ f : TokenForm, f.WellFormed ∧
      f.kind = t.kind ∧ f.lexeme = t.lexeme ∧ f.spelling = l.display := by
  have hdisplay := h.display_eq hvalue
  have hbare (hquoted : t.quoted = false) : t.form.spelling = t.lexeme :=
    if_neg (by simp [Token.form, hquoted])
  cases hvalue with
  | string kind =>
    obtain ⟨text, -, hform⟩ := h.exists_string kind
    obtain ⟨-, hlexeme, -⟩ := TokenForm.mk.inj hform
    refine ⟨t.form, h, rfl, rfl, ?_⟩
    rw [spelling, hform, Literal.display, hlexeme, Literal.mergeQuotes_doubleQuotes]
    rfl
  | number kind =>
    obtain ⟨negative, whole, fraction, -, -, -, hform⟩ := h.exists_number kind
    obtain ⟨-, -, hquoted⟩ := TokenForm.mk.inj hform
    exact ⟨t.form, h, rfl, rfl, (hbare hquoted).trans (hdisplay nofun).2.symm⟩
  | timestamp kind =>
    obtain ⟨htext, hdisplay⟩ := hdisplay nofun
    -- without quotes, whether there were any or not
    exact ⟨⟨.timestamp, t.lexeme, false⟩, .timestamp (h.inForm kind) (htext ▸ hl rfl), kind.symm,
      rfl, hdisplay.symm⟩
  | boolean kind =>
    obtain ⟨c, cs, -, -, -, -, hform⟩ := h.exists_name kind
    obtain ⟨-, -, hquoted⟩ := TokenForm.mk.inj hform
    exact ⟨t.form, h, rfl, rfl, (hbare hquoted).trans (hdisplay nofun).2.symm⟩

/-- Any other literal displays as text that begins with a digit of another script. -/
theorem WellFormed.exists_of_not_rereadable (h : t.form.WellFormed) (hvalue : Value t l)
    (hl : ¬ l.Rereadable) : ∃ c cs, l.text = c :: cs ∧ l.display = c :: cs ∧
      isDecimalDigit c = true ∧ c.isDigit = false := by
  have hdisplay := h.display_eq hvalue
  cases hvalue with
  | timestamp kind =>
    obtain ⟨htext, hdisplay⟩ := hdisplay nofun
    obtain ⟨c, cs, (hlexeme : t.lexeme = c :: cs), hc⟩ := (h.inForm kind).exists_cons
    have htext := htext.trans hlexeme
    refine ⟨c, cs, htext, hdisplay.trans hlexeme, hc, Bool.eq_false_iff.mpr ?_⟩
    exact fun hdigit => hl fun _ => ⟨c, by rw [htext, List.head?_cons], hdigit⟩
  | string | number | boolean => exact absurd nofun hl

end TokenForm

/-! ## In a filter -/

theorem Text.toList_spaced (front : String) (cs : List Char) :
    (front ++ " " ++ String.ofList cs).toList = front.toList ++ ' ' :: cs := by
  simp [String.toList_append]

/-- A predicate with an operator that takes one value. -/
theorem Grammar.Leaf.exists_unary {n o v : Token} {op : Operator} {l : Literal}
    (name : n.kind = .name) (hop : o.kind = .operator op) (harity : op.arity = .unary)
    (value : Value v l) :
    ∃ test : Test Literal, Leaf [n, o, v] ⟨String.ofList n.lexeme, n.position, test⟩ ∧
      test.operator = op ∧ test.values = [l] := by
  cases op with
  | compare c => exact ⟨.compare c l, .compare name hop value, rfl, rfl⟩
  | pattern place => exact ⟨.pattern place l, .pattern name hop value, rfl, rfl⟩
  | null | notNull | isIn => cases harity

/-- What can be read of a predicate whose value cannot be read. -/
theorem Parser.parse_of_unreadableValue {limits : Limits} {text : String} {n o : Token}
    {op : Operator} {e : LexError} (hlexed : Lexed.ofText text = ⟨[n, o], some e⟩)
    (hname : n.kind = .name) (hop : o.kind = .operator op) (hroom : 0 < limits.predicates) :
    parse limits text = .error (.lex e) := by
  have hrun : run limits .start [n, o] = .ok ⟨afterOperator n op, .none, [], 1⟩ :=
    run_cons (step_name rfl hname hroom) (run_cons (step_operator rfl hop) run_nil)
  rw [parse, hlexed, Lexed.parse, hrun]
  rfl

variable {limits : Limits} {front : String} {n o t : Token} {op : Operator} {l : Literal}

/-- Behind an operator and a space, a display is read as the literal that is shown. -/
theorem parse_display_of_rereadable (hfront : tokenize front = .ok [n, o]) (hname : n.kind = .name)
    (hop : o.kind = .operator op) (harity : op.arity = .unary) (hroom : 0 < limits.predicates)
    (hform : t.form.WellFormed) (hvalue : Value t l) (hl : l.Rereadable) :
    ∃ test, parse limits (front ++ " " ++ String.ofList l.display) =
        .ok (.leaf ⟨String.ofList n.lexeme, n.position, test⟩) ∧
      test.operator = op ∧ test.values = [⟨l.kind, l.text, byteLength front.toList + 1⟩] := by
  obtain ⟨f, hf, hkind, hlexeme, hspelling⟩ := hform.exists_display hvalue hl
  obtain ⟨c, cs, hdisplay, hread⟩ := hf.exists_read
  let v : Token := ⟨f.kind, f.lexeme, f.quoted, byteLength front.toList + 1⟩
  have hcopy : Value v ⟨l.kind, l.text, v.position⟩ := hvalue.copy hkind hlexeme
  have hconsists : Lexed.Consists 0 front.toList [n, o] := Lexed.of_tokenize hfront
  have hv : Lexed.Consists (0 + byteLength front.toList + 1) l.display [v] := by
    rw [Nat.zero_add, ← hspelling, hdisplay]
    exact Lexed.consists_of_read hread
  have hlexed : Lexed.ofText (front ++ " " ++ String.ofList l.display) = ⟨[n, o, v], none⟩ := by
    rw [Lexed.ofText, toList_spaced]
    exact hconsists.appendSpace hv
  have hlength : Demand.listLength [v] = 0 := Demand.listLength_value hcopy []
  obtain ⟨test, hleaf, hoperator, hvalues⟩ := Leaf.exists_unary hname hop harity hcopy
  exact ⟨test, Parser.parse_of_leaf hlexed hleaf hroom (hlength ▸ Nat.zero_le _), hoperator,
    hvalues⟩

theorem parse_display_of_not_rereadable (hfront : tokenize front = .ok [n, o])
    (hname : n.kind = .name) (hop : o.kind = .operator op) (hroom : 0 < limits.predicates)
    (hform : t.form.WellFormed) (hvalue : Value t l) (hl : ¬ l.Rereadable) :
    ∃ c, l.text.head? = some c ∧ c.isDigit = false ∧
      parse limits (front ++ " " ++ String.ofList l.display) =
        .error (.lex ⟨byteLength front.toList + 1, .unexpectedCharacter c⟩) := by
  obtain ⟨c, cs, htext, hdisplay, hc, hdigit⟩ := hform.exists_of_not_rereadable hvalue hl
  have hconsists : Lexed.Consists 0 front.toList [n, o] := Lexed.of_tokenize hfront
  have hread : LeadingToken.read c cs = .error (.unexpectedCharacter c) :=
    LeadingToken.read_of_isDecimalDigit hc hdigit cs
  have hlexed : Lexed.ofText (front ++ " " ++ String.ofList l.display) =
      ⟨[n, o], some ⟨byteLength front.toList + 1, .unexpectedCharacter c⟩⟩ := by
    rw [Lexed.ofText, toList_spaced, hconsists.ofChars_append (detached_cons (by decide) _),
      Lexed.ofChars_space _ _ rfl, hdisplay,
      Lexed.ofChars_error _ (not_isSpace_of_isDecimalDigit hc) hread, Nat.zero_add]
    rfl
  refine ⟨c, by rw [htext, List.head?_cons], hdigit, ?_⟩
  exact Parser.parse_of_unreadableValue hlexed hname hop hroom

/-- **Display is filter text**, where it can be: behind a field and an operator that takes one
value, the display of a literal that some text has is read as a literal of the same kind with the
same text, unless it is a timestamp that begins with a digit of another script; and then
no token is found where it stands. -/
theorem parse_display {text : String} {e : Expr Predicate} {p : Predicate}
    (hparse : parse limits text = .ok e) (hp : p ∈ e.leaves) (hl : l ∈ p.test.values)
    (hfront : tokenize front = .ok [n, o]) (hname : n.kind = .name)
    (hop : o.kind = .operator op) (harity : op.arity = .unary) :
    let shown := parse limits (front ++ " " ++ String.ofList l.display)
    let position := byteLength front.toList + 1
    ((∃ test, shown = .ok (.leaf ⟨String.ofList n.lexeme, n.position, test⟩) ∧
        test.operator = op ∧ test.values = [⟨l.kind, l.text, position⟩]) ↔ l.Rereadable) ∧
      (¬ l.Rereadable → ∃ c, l.text.head? = some c ∧ c.isDigit = false ∧
        shown = .error (.lex ⟨position, .unexpectedCharacter c⟩)) := by
  intro shown position
  obtain ⟨-, hderives, hallow⟩ := Parser.parse_eq_ok_iff.mp hparse
  have hroom : 0 < limits.predicates := by
    have hsize : e.size ≤ limits.predicates :=
      (Demand.predicates_ofTokens hderives).symm ▸ hallow.predicates
    exact Nat.lt_of_lt_of_le (List.length_pos_of_mem hp) hsize
  obtain ⟨t, ht, hvalue⟩ := hderives.exists_value hp hl
  have hform : t.form.WellFormed := Lexed.wellFormed_form ht
  have hunread := parse_display_of_not_rereadable hfront hname hop hroom hform hvalue
  refine ⟨⟨?_, parse_display_of_rereadable hfront hname hop harity hroom hform hvalue⟩, hunread⟩
  rintro ⟨test, hshown, -⟩
  by_contra hl
  obtain ⟨c, -, -, herror⟩ := hunread hl
  cases hshown.symm.trans herror

/-- A list of a string and a signed number, and a timestamp in quotes: it is shown
without them. -/
theorem parse_display_quotedTimestamp :
    let text := "name $in ('it''s', -0.50) OR seen > '2020-01-01T10:30'"
    let l : Literal := ⟨.timestamp, "2020-01-01T10:30".toList, 36⟩
    let p : Predicate := ⟨"seen", 29, .compare .greater l⟩
    ∃ e, parse {} text = .ok e ∧ p ∈ e.leaves ∧ l ∈ p.test.values ∧
      ∃ test, parse {} ("born <=" ++ " " ++ String.ofList l.display) =
          .ok (.leaf ⟨String.ofList "born".toList, 0, test⟩) ∧
        test.operator = .compare .lessOrEqual ∧
        test.values = [⟨.timestamp, "2020-01-01T10:30".toList, 8⟩] := by
  intro text l p
  let n : Token := ⟨.name, "born".toList, false, 0⟩
  let o : Token := ⟨.operator (.compare .lessOrEqual), "<=".toList, false, 5⟩
  have hfront : tokenize "born <=" = .ok [n, o] := by decide +kernel
  obtain ⟨e, hparse, hp⟩ : ∃ e, parse {} text = .ok e ∧ p ∈ e.leaves := by
    refine ⟨.or (.leaf ⟨"name", 0, .isIn [⟨.string, "it's".toList, 10⟩,
      ⟨.number, "-0.50".toList, 19⟩]⟩) (.leaf p), by decide +kernel, by decide⟩
  have hl : l ∈ p.test.values := List.mem_singleton.mpr rfl
  have hdigit : l.Rereadable := fun _ => ⟨'2', rfl, rfl⟩
  exact ⟨e, hparse, hp, hl, (parse_display hparse hp hl hfront rfl rfl rfl).1.mpr hdigit⟩

/-- Not every display is filter text: fullwidth digits are admitted in quotes only. -/
theorem not_forall_parse_display :
    ¬ ∀ (text : String) (e : Expr Predicate) (p : Predicate) (l : Literal),
      parse {} text = .ok e → p ∈ e.leaves → l ∈ p.test.values →
      ∃ p' l', parse {} ("f = " ++ String.ofList l.display) = .ok (.leaf p') ∧
        p'.test.values = [l'] ∧ l'.kind = l.kind ∧ l'.text = l.text := by
  intro hall
  let l : Literal := ⟨.timestamp, "２０２０-０１-０１".toList, 4⟩
  let p : Predicate := ⟨"f", 0, .compare .equal l⟩
  have hparse : parse {} "f = '２０２０-０１-０１'" = .ok (.leaf p) := by decide +kernel
  have hshown : parse {} ("f = " ++ String.ofList l.display) =
      .error (.lex ⟨4, .unexpectedCharacter '２'⟩) := by decide +kernel
  obtain ⟨p', l', hread, -⟩ := hall _ _ p l hparse (List.mem_singleton.mpr rfl)
    (List.mem_singleton.mpr rfl)
  cases hshown.symm.trans hread

end RecordQuery
