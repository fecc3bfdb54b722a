import RecordQuery.Filter.Lexed

/-!
# Token order

A text is read from its front to its end. Each token starts after the one
before it, so the order of the tokens is the order of their positions; and
each takes up at least one byte, so a text has no more tokens than bytes.
-/

namespace RecordQuery

open Text

theorem Text.byteLength_pos {cs : List Char} (h : cs ≠ []) : 0 < byteLength cs := by
  cases cs with
  | nil => exact absurd rfl h
  | cons c cs =>
    have := c.utf8Size_pos
    simp only [byteLength_cons]
    omega

namespace LeadingToken

variable {c : Char} {cs : List Char} {t : LeadingToken}

theorem quoted_of_number {sign : List Char} (h : number sign cs = .ok t) : t.quoted = false := by
  unfold number at h
  split at h
  · cases h
  · split at h <;> cases h
    rfl

theorem quoted_of_timestampOrNumber (h : timestampOrNumber cs = .ok t) : t.quoted = false := by
  unfold timestampOrNumber at h
  split at h
  · split at h <;> cases h
    rfl
  · exact quoted_of_number h

/-- Quotes make a string or a timestamp, and nothing else. -/
theorem kind_of_quoted (h : read c cs = .ok t) (hquoted : t.quoted = true) :
    t.kind = .string ∨ t.kind = .timestamp := by
  unfold read at h
  split at h
  case h_1 | h_2 | h_3 | h_4 => cases h; cases hquoted
  case h_5 | h_6 =>
    cases h
    unfold comparison at hquoted
    split at hquoted <;> cases hquoted
  case h_7 =>
    split at h <;> cases h
    cases hquoted
  case h_8 =>
    unfold namedOperator at h
    simp only at h
    split at h <;> cases h
    cases hquoted
  case h_9 =>
    unfold quotedLiteral at h
    split at h <;> cases h
    split
    · exact .inr rfl
    · exact .inl rfl
  case h_10 =>
    split at h
    · split at h
      · rw [quoted_of_number h] at hquoted
        cases hquoted
      · cases h
    · cases h
  case h_11 =>
    split at h
    · rw [quoted_of_timestampOrNumber h] at hquoted
      cases hquoted
    · split at h <;> cases h
      cases hquoted

end LeadingToken

namespace Lexed

/-! ## One step of reading -/

theorem ofChars_nil (position : Nat) : ofChars position [] = ⟨[], none⟩ := by
  rw [ofChars]

theorem ofChars_space {c : Char} (position : Nat) (cs : List Char) (h : isSpace c = true) :
    ofChars position (c :: cs) = ofChars (position + c.utf8Size) cs := by
  rw [ofChars, if_pos h]

theorem ofChars_error {c : Char} {cs : List Char} {cause : LexCause} (position : Nat)
    (h : ¬ isSpace c = true) (hr : LeadingToken.read c cs = .error cause) :
    ofChars position (c :: cs) = ⟨[], some ⟨position, cause⟩⟩ := by
  rw [ofChars, if_neg h]
  split
  · rename_i hr'
    cases hr.symm.trans hr'
    rfl
  · rename_i hr'
    cases hr.symm.trans hr'

theorem ofChars_token {c : Char} {cs : List Char} {t : LeadingToken} (position : Nat)
    (h : ¬ isSpace c = true) (hr : LeadingToken.read c cs = .ok t) :
    ofChars position (c :: cs) =
      let token : Token := ⟨t.kind, t.lexeme, t.quoted, position⟩
      ⟨token :: (ofChars token.stop t.rest).tokens, (ofChars token.stop t.rest).failure⟩ := by
  rw [ofChars, if_neg h]
  split
  · rename_i hr'
    cases hr.symm.trans hr'
  · rename_i hr'
    cases hr.symm.trans hr'
    rfl

/-- The token and what follows it share the bytes of the text, and the token
has some of them. -/
theorem byteLength_read {c : Char} {cs : List Char} {t : LeadingToken}
    (hr : LeadingToken.read c cs = .ok t) :
    0 < byteLength t.spelling ∧
      byteLength t.spelling + byteLength t.rest = byteLength (c :: cs) := by
  refine ⟨byteLength_pos (LeadingToken.read_spelling_ne_nil hr), ?_⟩
  rw [← byteLength_append, LeadingToken.read_append hr]

/-! ## All tokens -/

/-- A text has no more tokens than bytes. -/
theorem length_tokens_le (position : Nat) (cs : List Char) :
    (ofChars position cs).tokens.length ≤ byteLength cs := by
  induction position, cs using ofChars.induct with
  | case1 position => simp [ofChars_nil]
  | case2 position c cs hspace ih =>
    rw [ofChars_space position cs hspace, byteLength_cons]
    omega
  | case3 position c cs hspace cause hr => simp [ofChars_error position hspace hr]
  | case4 position c cs hspace t hr _ token ih =>
    obtain ⟨hpos, hsum⟩ := byteLength_read hr
    rw [ofChars_token position hspace hr]
    show (ofChars token.stop t.rest).tokens.length + 1 ≤ byteLength (c :: cs)
    omega

/-- No token starts before the text does. -/
theorem le_position (position : Nat) (cs : List Char) :
    ∀ t ∈ (ofChars position cs).tokens, position ≤ t.position := by
  induction position, cs using ofChars.induct with
  | case1 position => simp [ofChars_nil]
  | case2 position c cs hspace ih =>
    rw [ofChars_space position cs hspace]
    intro t ht
    exact Nat.le_trans (Nat.le_add_right ..) (ih t ht)
  | case3 position c cs hspace cause hr => simp [ofChars_error position hspace hr]
  | case4 position c cs hspace t hr _ token ih =>
    rw [ofChars_token position hspace hr]
    intro u hu
    rcases List.mem_cons.mp hu with rfl | hu
    · exact Nat.le_refl _
    · -- what follows starts where the token stops
      exact Nat.le_trans (Nat.le_add_right ..) (ih u hu)

/-- No token starts where the text ends. -/
theorem position_lt (position : Nat) (cs : List Char) :
    ∀ t ∈ (ofChars position cs).tokens, t.position < position + byteLength cs := by
  induction position, cs using ofChars.induct with
  | case1 position => simp [ofChars_nil]
  | case2 position c cs hspace ih =>
    rw [ofChars_space position cs hspace, byteLength_cons, ← Nat.add_assoc]
    exact ih
  | case3 position c cs hspace cause hr => simp [ofChars_error position hspace hr]
  | case4 position c cs hspace t hr _ token ih =>
    obtain ⟨hpos, hsum⟩ := byteLength_read hr
    have hstop : token.stop = position + byteLength t.spelling := rfl
    rw [ofChars_token position hspace hr]
    intro u hu
    rcases List.mem_cons.mp hu with rfl | hu
    · show position < _
      omega
    · have hlt := ih u hu
      omega

/-- **Tokens stand in the order of the text**: each starts after the one before it. -/
theorem pairwise_position (position : Nat) (cs : List Char) :
    (ofChars position cs).tokens.Pairwise fun a b => a.position < b.position := by
  induction position, cs using ofChars.induct with
  | case1 position => simp [ofChars_nil]
  | case2 position c cs hspace ih => rwa [ofChars_space position cs hspace]
  | case3 position c cs hspace cause hr => simp [ofChars_error position hspace hr]
  | case4 position c cs hspace t hr _ token ih =>
    rw [ofChars_token position hspace hr]
    refine List.pairwise_cons.mpr ⟨fun u hu => ?_, ih⟩
    -- the token has a byte at least, and no other starts before its end
    have hstop : position + byteLength t.spelling ≤ u.position := le_position _ _ u hu
    have hpos := (byteLength_read hr).1
    show position < u.position
    omega

/-! ## Where tokens stand -/

/-- Every token has been read at its position. -/
theorem exists_read (position : Nat) (cs : List Char) :
    ∀ t ∈ (ofChars position cs).tokens, ∃ before c rest lead, cs = before ++ c :: rest ∧
      LeadingToken.read c rest = .ok lead ∧
      t = ⟨lead.kind, lead.lexeme, lead.quoted, position + byteLength before⟩ := by
  induction position, cs using ofChars.induct with
  | case1 position => simp [ofChars_nil]
  | case2 position c cs hspace ih =>
    rw [ofChars_space position cs hspace]
    intro u hu
    obtain ⟨before, c', rest, lead, rfl, hlead, rfl⟩ := ih u hu
    refine ⟨c :: before, c', rest, lead, rfl, hlead, ?_⟩
    rw [byteLength_cons, Nat.add_assoc]
  | case3 position c cs hspace cause hr => simp [ofChars_error position hspace hr]
  | case4 position c cs hspace t hr _ token ih =>
    rw [ofChars_token position hspace hr]
    intro u hu
    rcases List.mem_cons.mp hu with rfl | hu
    · exact ⟨[], c, cs, t, rfl, hr, rfl⟩
    · -- what follows starts where the token stops
      obtain ⟨before, c', rest, lead, hrest, hlead, rfl⟩ := ih u hu
      refine ⟨t.spelling ++ before, c', rest, lead, ?_, hlead, ?_⟩
      · rw [← LeadingToken.read_append hr, hrest, List.append_assoc]
      · have hstop : token.stop = position + byteLength t.spelling := rfl
        rw [hstop, byteLength_append, Nat.add_assoc]

/-- A token takes up the characters of the text at its position. -/
theorem exists_append_spelling {position : Nat} {cs : List Char} {t : Token}
    (h : t ∈ (ofChars position cs).tokens) : ∃ before after,
      cs = before ++ t.spelling ++ after ∧ t.position = position + byteLength before := by
  obtain ⟨before, c, rest, lead, rfl, hlead, rfl⟩ := exists_read position cs t h
  refine ⟨before, lead.rest, ?_, rfl⟩
  rw [← LeadingToken.read_append hlead, ← List.append_assoc]
  rfl

/-- A name is spelled as it is. -/
theorem spelling_of_name {position : Nat} {cs : List Char} {t : Token}
    (h : t ∈ (ofChars position cs).tokens) (hkind : t.kind = .name) : t.spelling = t.lexeme := by
  obtain ⟨before, c, rest, lead, -, hlead, rfl⟩ := exists_read position cs t h
  have hquoted : lead.quoted = false := by
    refine Bool.eq_false_iff.mpr fun hquoted => ?_
    rcases LeadingToken.kind_of_quoted hlead hquoted with hstring | htimestamp
    · cases hkind.symm.trans hstring
    · cases hkind.symm.trans htimestamp
  exact if_neg (Bool.eq_false_iff.mp hquoted)

/-- The tokens of a text that has nothing but tokens. -/
theorem of_tokenize {text : String} {ts : List Token} (h : tokenize text = .ok ts) :
    Lexed.ofText text = ⟨ts, none⟩ := by
  simp only [tokenize, complete] at h
  split at h
  · rename_i hf
    cases h
    rw [← hf]
  · cases h

end Lexed

end RecordQuery
