import RecordQuery.Proofs.PrintedTokens

/-!
# Tokens that are read

Every token that is read is one that can be written, so that what is true of the tokens as they
are written is true of the tokens of every text. Nothing more has to be known of a text that is
read: its quotes have been cut where they close, its words and numbers where they end.
-/

namespace RecordQuery

open Text

/-- The token as it is, wherever it stands. -/
def LeadingToken.form (t : LeadingToken) : TokenForm :=
  ⟨t.kind, t.lexeme, t.quoted⟩

namespace LeadingToken

open TokenForm (WellFormed)

variable {c : Char} {cs content rest : List Char} {t : LeadingToken}

/-! ## One kind after the other -/

/-- In front of the quote that closes, quotes occur only doubled. -/
theorem exists_of_quotedContent? (h : quotedContent? cs = some (content, rest)) :
    ∃ text, content = Literal.doubleQuotes text := by
  induction cs using quotedContent?.induct generalizing content rest with
  | case1 => cases h
  | case2 cs ih =>
    obtain ⟨⟨content', rest'⟩, hq, he⟩ := Option.map_eq_some_iff.mp h
    cases he
    obtain ⟨text, rfl⟩ := ih hq
    exact ⟨'\'' :: text, rfl⟩
  | case3 cs hne =>
    rw [quotedContent?.eq_3 _ hne] at h
    cases h
    exact ⟨[], rfl⟩
  | case4 c cs hne hne' ih =>
    rw [quotedContent?.eq_4 _ _ hne hne'] at h
    obtain ⟨⟨content', rest'⟩, hq, he⟩ := Option.map_eq_some_iff.mp h
    cases he
    obtain ⟨text, rfl⟩ := ih hq
    have hc : c ≠ '\'' := fun hc => hne' hc
    exact ⟨c :: text, by rw [Literal.doubleQuotes, if_neg hc]⟩

theorem wellFormed_of_quotedLiteral (h : quotedLiteral cs = .ok t) : t.form.WellFormed := by
  unfold quotedLiteral at h
  split at h
  · cases h
  · rename_i content rest hq
    cases h
    obtain ⟨text, rfl⟩ := exists_of_quotedContent? hq
    exact .quoted text

/-- The digits of a number are taken, and perhaps a point with digits behind it. -/
theorem exists_of_numberDigits? {ds : List Char} (h : numberDigits? cs = some (ds, rest)) :
    ∃ fraction, Digits fraction ∧
      ds = spellNumber false (cs.takeWhile Char.isDigit) fraction := by
  unfold numberDigits? at h
  simp only at h
  split at h
  · rename_i following hpoint
    split at h
    · cases h
    · rename_i hsome
      cases h
      have hne : following.takeWhile Char.isDigit ≠ [] := fun hnil => by simp [hnil] at hsome
      refine ⟨following.takeWhile Char.isDigit, fun d hd => List.mem_takeWhile_imp hd, ?_⟩
      rw [spellNumber, if_neg hne]
      rfl
  · cases h
    exact ⟨[], digits_nil, by simp [spellNumber]⟩

/-- What starts with a digit, behind a sign or not, is a number. -/
theorem wellFormed_of_number (negative : Bool) (hc : c.isDigit = true)
    (h : number (if negative then ['-'] else []) (c :: cs) = .ok t) : t.form.WellFormed := by
  unfold number at h
  split at h
  · cases h
  · rename_i ds rest hd
    split at h <;> cases h
    obtain ⟨fraction, hfraction, rfl⟩ := exists_of_numberDigits? hd
    have hwhole : Digits ((c :: cs).takeWhile Char.isDigit) := fun d hd =>
      List.mem_takeWhile_imp hd
    have hne : (c :: cs).takeWhile Char.isDigit ≠ [] := by simp [hc]
    have hsign : (if negative then ['-'] else []) ++
        spellNumber false ((c :: cs).takeWhile Char.isDigit) fraction =
          spellNumber negative ((c :: cs).takeWhile Char.isDigit) fraction := by
      simp [spellNumber]
    show WellFormed ⟨.number, _ ++ _, false⟩
    rw [hsign]
    exact .number negative hne hwhole hfraction

theorem wellFormed_of_timestampOrNumber (hc : c.isDigit = true)
    (h : timestampOrNumber (c :: cs) = .ok t) : t.form.WellFormed := by
  unfold timestampOrNumber at h
  split at h
  · rename_i spelling rest hlead
    split at h <;> cases h
    have hform := Timestamp.inForm_of_leading? hlead
    -- what is read begins where the text does, with the digit
    obtain ⟨d, ds, rfl, -⟩ := hform.exists_cons
    obtain ⟨rfl, -⟩ := List.cons.inj (Timestamp.leading?_append hlead)
    exact .timestamp hform ⟨d, rfl, hc⟩
  · exact wellFormed_of_number false hc h

theorem wellFormed_of_namedOperator (h : namedOperator cs = .ok t) : t.form.WellFormed := by
  unfold namedOperator at h
  simp only at h
  split at h
  · rename_i op hop
    cases h
    have hsymbol : op.symbol = String.ofList ('$' :: cs.takeWhile Char.isAlpha) := by
      simpa using List.find?_some hop
    have hwell := WellFormed.operator op
    rwa [hsymbol, String.toList_ofList] at hwell
  · cases h

/-- A word is a name, unless it joins conditions. -/
theorem wellFormed_word (hc : isNameStart c = true) (cs : List Char) :
    (word (c :: cs)).form.WellFormed := by
  have hfirst : (c :: cs).takeWhile isNamePart = c :: cs.takeWhile isNamePart :=
    List.takeWhile_cons_of_pos (isNamePart_of_isNameStart hc)
  have hparts : ∀ d ∈ cs.takeWhile isNamePart, isNamePart d = true := fun d hd =>
    List.mem_takeWhile_imp hd
  show WellFormed ⟨wordKind ((c :: cs).takeWhile isNamePart), (c :: cs).takeWhile isNamePart, false⟩
  rw [hfirst]
  show WellFormed ⟨if sameWord _ "and".toList then .and
    else if sameWord _ "or".toList then .or else .name, _, false⟩
  split
  · rename_i hand
    exact .and hand
  · rename_i hand
    split
    · rename_i hor
      exact .or hor
    · rename_i hor
      exact .name hc hparts (Bool.eq_false_iff.mpr hand) (Bool.eq_false_iff.mpr hor)

/-! ## All tokens -/

/-- **Every token that is read can be written.** -/
theorem wellFormed_of_read (h : read c cs = .ok t) : t.form.WellFormed := by
  unfold read at h
  split at h
  case h_1 => cases h; exact .leftParen
  case h_2 => cases h; exact .rightParen
  case h_3 => cases h; exact .comma
  case h_4 => cases h; exact .operator (.compare .equal)
  case h_5 =>
    cases h
    unfold comparison
    split
    · exact .operator (.compare .greaterOrEqual)
    · exact .operator (.compare .greater)
  case h_6 =>
    cases h
    unfold comparison
    split
    · exact .operator (.compare .lessOrEqual)
    · exact .operator (.compare .less)
  case h_7 =>
    split at h <;> cases h
    exact .operator (.compare .notEqual)
  case h_8 => exact wellFormed_of_namedOperator h
  case h_9 => exact wellFormed_of_quotedLiteral h
  case h_10 =>
    split at h
    · split at h
      · rename_i hd
        exact wellFormed_of_number true hd h
      · cases h
    · cases h
  case h_11 =>
    split at h
    · rename_i hd
      exact wellFormed_of_timestampOrNumber hd h
    · split at h <;> cases h
      rename_i hs
      exact wellFormed_word hs cs

end LeadingToken

namespace TokenForm

/-! ## What the kind tells -/

variable {f : TokenForm}

/-- A string is in quotes, and has not the form of a timestamp. -/
theorem WellFormed.exists_string (h : f.WellFormed) (hkind : f.kind = .string) :
    ∃ text, Timestamp.hasForm (Literal.doubleQuotes text) = false ∧
      f = ⟨.string, Literal.doubleQuotes text, true⟩ := by
  cases h with
  | quoted text =>
    by_cases hform : Timestamp.hasForm (Literal.doubleQuotes text) = true
    · simp [hform] at hkind
    · exact ⟨text, Bool.eq_false_iff.mpr hform, by rw [if_neg hform]⟩
  | _ => cases hkind

theorem WellFormed.exists_number (h : f.WellFormed) (hkind : f.kind = .number) :
    ∃ negative whole fraction, whole ≠ [] ∧ Digits whole ∧ Digits fraction ∧
      f = ⟨.number, spellNumber negative whole fraction, false⟩ := by
  cases h with
  | number negative some digits fractionDigits =>
    exact ⟨negative, _, _, some, digits, fractionDigits, rfl⟩
  | quoted text => split at hkind <;> cases hkind
  | _ => cases hkind

/-- A timestamp has its form, in quotes and without them. -/
theorem WellFormed.inForm (h : f.WellFormed) (hkind : f.kind = .timestamp) :
    Timestamp.InForm f.lexeme := by
  cases h with
  | timestamp form => exact form
  | quoted text =>
    split at hkind
    · rename_i hform
      exact Timestamp.hasForm_iff.mp hform
    · cases hkind
  | _ => cases hkind

/-- A name is one word, and does not join conditions. -/
theorem WellFormed.exists_name (h : f.WellFormed) (hkind : f.kind = .name) :
    ∃ c cs, isNameStart c = true ∧ (∀ d ∈ cs, isNamePart d = true) ∧
      sameWord (c :: cs) "and".toList = false ∧ sameWord (c :: cs) "or".toList = false ∧
      f = ⟨.name, c :: cs, false⟩ := by
  cases h with
  | name start parts notAnd notOr => exact ⟨_, _, start, parts, notAnd, notOr, rfl⟩
  | quoted text => split at hkind <;> cases hkind
  | _ => cases hkind

end TokenForm

/-- The tokens of a text can be written, up to the place where its reading stops. -/
theorem Lexed.wellFormed_form {position : Nat} {cs : List Char} {t : Token}
    (h : t ∈ (ofChars position cs).tokens) : t.form.WellFormed := by
  obtain ⟨before, c, rest, lead, -, hread, rfl⟩ := exists_read position cs t h
  exact LeadingToken.wellFormed_of_read hread

end RecordQuery
