import RecordQuery.Proofs.TimestampForm
import RecordQuery.Proofs.TokenOrder
import RecordQuery.Text.Blank

/-!
# Tokens in context

Every token looks ahead: a word or a number goes on while it can, a number may
turn out to be a timestamp, and a closing quote may turn out to be the first of
two. Blanks, commas and parentheses end all of this. So a text that has been read
to its end is read alike where one of them follows it, and the tokens after it
are those of what follows. Blanks of every script do, though only a few of them may
stand between tokens.
-/

namespace RecordQuery

open Text

/-! ## Characters that end a token -/

namespace Text

/-- The characters over which no token goes on, unless it is in quotes. -/
def separators : List Char :=
  [',', '(', ')', '\t', '\n', '\x0b', '\x0c', '\r', ' ', '\u0085', '\u00a0', '\u1680',
    '\u2000', '\u2001', '\u2002', '\u2003', '\u2004', '\u2005', '\u2006', '\u2007', '\u2008',
    '\u2009', '\u200a', '\u2028', '\u2029', '\u202f', '\u205f', '\u3000']

/-- The text is over, or goes on with a separator. -/
def Detached (rest : List Char) : Prop :=
  ∀ c ∈ rest.head?, c ∈ separators

/-- The class has no separators. -/
def Inside (p : Char → Bool) : Prop :=
  ∀ c ∈ separators, p c = false

instance (p : Char → Bool) : Decidable (Inside p) :=
  List.decidableBAll (fun c => p c = false) separators

theorem inside_isDigit : Inside Char.isDigit := by decide

theorem inside_isAlpha : Inside Char.isAlpha := by decide

theorem inside_isNamePart : Inside isNamePart := by decide

theorem inside_isDecimalDigit : Inside isDecimalDigit := by decide +kernel

/-- The letters and the underscore come after the digits. -/
theorem not_isDigit_of_isNameStart {c : Char} (h : isNameStart c = true) : ¬ c.isDigit = true := by
  intro hd
  have hle : c.val ≤ '9'.val := of_decide_eq_true (Bool.and_eq_true_iff.mp hd).2
  have hge : 'A'.val ≤ c.val := by
    simp only [isNameStart, Bool.or_eq_true, beq_iff_eq] at h
    rcases h with halpha | rfl
    · rcases Bool.or_eq_true_iff.mp halpha with hupper | hlower
      · exact (of_decide_eq_true hupper).1
      · have ha : 'a'.val ≤ c.val := of_decide_eq_true (Bool.and_eq_true_iff.mp hlower).1
        exact UInt32.le_trans (by decide) ha
    · decide
  exact absurd (UInt32.le_trans hge hle) (by decide)

theorem mem_separators_of_isBlank {c : Char} (h : isBlank c = true) : c ∈ separators := by
  have hcode : c.toNat ∈ separators.map Char.toNat := by
    simp [isBlank] at h
    simp [separators]
    omega
  obtain ⟨d, hd, heq⟩ := List.mem_map.mp hcode
  rwa [← Char.toNat_inj.mp heq]

theorem detached_cons {c : Char} (h : c ∈ separators) (cs : List Char) : Detached (c :: cs) := by
  intro d hd
  cases hd
  exact h

variable {p : Char → Bool} {rest : List Char} {c mark : Char}

theorem Detached.class_eq_false (h : Detached (c :: rest)) (hp : Inside p) : p c = false :=
  hp c (h c rfl)

theorem Detached.ne (h : Detached (c :: rest)) (hm : mark ∉ separators) : c ≠ mark := by
  rintro rfl
  exact hm (h c rfl)

theorem Detached.takeWhile_append (h : Detached rest) (hp : Inside p) (cs : List Char) :
    (cs ++ rest).takeWhile p = cs.takeWhile p := by
  induction cs with
  | nil =>
    cases rest with
    | nil => rfl
    | cons c rest => simp [h.class_eq_false hp]
  | cons c cs ih => simp only [List.cons_append, List.takeWhile_cons, ih]

theorem Detached.dropWhile_append (h : Detached rest) (hp : Inside p) (cs : List Char) :
    (cs ++ rest).dropWhile p = cs.dropWhile p ++ rest := by
  induction cs with
  | nil =>
    cases rest with
    | nil => rfl
    | cons c rest => simp [h.class_eq_false hp]
  | cons c cs ih =>
    simp only [List.cons_append, List.dropWhile_cons, ih]
    split <;> rfl

end Text

/-! ## Timestamps -/

/-- No character of the text is a separator. -/
def Solid (cs : List Char) : Prop :=
  ∀ c ∈ cs, c ∉ separators

theorem Written.solid_spell {w : Written} (h : w.WellFormed) : Solid w.spell := by
  have hmarks : Inside marks.contains := by decide
  intro c hc hmem
  rcases mem_spell h hc with hdigit | hmark
  · rw [inside_isDecimalDigit c hmem] at hdigit
    cases hdigit
  · rw [← List.contains_iff_mem, hmarks c hmem] at hmark
    cases hmark

/-- What was read, and what followed it with more text at its end. -/
def followedBy {α : Type} (rest : List Char) (x : α × List Char) : α × List Char :=
  (x.1, x.2 ++ rest)

/-- Text without separators at the front of a text lies before the separator. -/
theorem Solid.of_append_eq {spelling cs rest following : List Char} (hs : Solid spelling)
    (h : Detached rest) (heq : cs ++ rest = spelling ++ following) :
    ∃ following', cs = spelling ++ following' ∧ following = following' ++ rest := by
  rcases List.append_eq_append_iff.mp heq with ⟨as, rfl, hrest⟩ | ⟨bs, hcs, hfollowing⟩
  · cases as with
    | nil => exact ⟨[], by simp, by simpa using hrest.symm⟩
    | cons c as =>
      have hc : c ∈ separators := h c (by simp [hrest])
      exact absurd hc (hs c (by simp))
  · exact ⟨bs, hcs, hfollowing⟩

/-- A timestamp is read alike where it is followed by a separator. -/
theorem Timestamp.leading?_append_detached {rest : List Char} (h : Detached rest) (cs : List Char) :
    leading? (cs ++ rest) = (leading? cs).map (followedBy rest) := by
  -- no timestamp at the front of the longer text goes beyond the shorter one
  have hfront : ∀ spelling following, InForm spelling → cs ++ rest = spelling ++ following →
      ∃ following', cs = spelling ++ following' ∧ following = following' ++ rest := by
    rintro _ following ⟨w, hw, rfl⟩ heq
    exact (Written.solid_spell hw).of_append_eq h heq
  cases hlead : leading? cs with
  | none =>
    refine leading?_eq_none_iff.mpr fun spelling following hform heq => ?_
    obtain ⟨following', hcs, -⟩ := hfront spelling following hform heq
    exact leading?_eq_none_iff.mp hlead spelling following' hform hcs
  | some x =>
    obtain ⟨spelling, following⟩ := x
    obtain ⟨hform, rfl, hlongest⟩ := leading?_eq_some_iff.mp hlead
    refine leading?_eq_some_iff.mpr ⟨hform, List.append_assoc .., ?_⟩
    intro spelling' following' hform' heq
    obtain ⟨following'', hcs, rfl⟩ := hfront spelling' following' hform' heq
    have hle := hlongest spelling' following'' hform' hcs
    simpa using hle

/-! ## Tokens -/

namespace LeadingToken

variable {cs rest : List Char} {t : LeadingToken}

/-- The token, with more text at the end of what follows it. -/
def before (t : LeadingToken) (rest : List Char) : LeadingToken :=
  { t with rest := t.rest ++ rest }

theorem runsOn_append_detached (h : Detached rest) (cs : List Char) :
    runsOn (cs ++ rest) = runsOn cs := by
  cases cs with
  | nil =>
    cases rest with
    | nil => rfl
    | cons c rest =>
      have hc : c ≠ '-' := h.ne (by decide)
      simp [runsOn, hc, h.class_eq_false inside_isNamePart]
  | cons c cs => rfl

theorem numberDigits?_append_detached (h : Detached rest) (cs : List Char) :
    numberDigits? (cs ++ rest) = (numberDigits? cs).map (followedBy rest) := by
  simp only [numberDigits?, h.takeWhile_append inside_isDigit, h.dropWhile_append inside_isDigit]
  cases cs.dropWhile Char.isDigit with
  | nil =>
    cases rest with
    | nil => rfl
    | cons c rest =>
      have hc : c ≠ '.' := h.ne (by decide)
      simp [hc, followedBy]
  | cons c ds =>
    by_cases hc : c = '.'
    · subst hc
      simp only [List.cons_append, h.takeWhile_append inside_isDigit,
        h.dropWhile_append inside_isDigit]
      split <;> rfl
    · simp [hc, followedBy]

theorem number_append_detached (h : Detached rest) (sign cs : List Char) :
    number sign (cs ++ rest) = (number sign cs).map (before · rest) := by
  simp only [number, numberDigits?_append_detached h]
  cases numberDigits? cs with
  | none => rfl
  | some x =>
    simp only [Option.map_some, followedBy, runsOn_append_detached h]
    split <;> rfl

theorem timestampOrNumber_append_detached (h : Detached rest) (cs : List Char) :
    timestampOrNumber (cs ++ rest) = (timestampOrNumber cs).map (before · rest) := by
  simp only [timestampOrNumber, Timestamp.leading?_append_detached h]
  cases Timestamp.leading? cs with
  | none => exact number_append_detached h [] cs
  | some x =>
    simp only [Option.map_some, followedBy, runsOn_append_detached h]
    split <;> rfl

/-- A quote that closes a literal still closes it, as no quote follows. -/
theorem quotedContent?_append_detached (h : Detached rest) {content following : List Char}
    (hq : quotedContent? cs = some (content, following)) :
    quotedContent? (cs ++ rest) = some (content, following ++ rest) := by
  induction cs using quotedContent?.induct generalizing content following with
  | case1 => cases hq
  | case2 cs ih =>
    obtain ⟨x, hx, he⟩ := Option.map_eq_some_iff.mp hq
    cases he
    simp [quotedContent?, ih hx]
  | case3 cs hne =>
    rw [quotedContent?.eq_3 _ hne] at hq
    cases hq
    refine quotedContent?.eq_3 _ fun ds hds => ?_
    cases cs with
    | nil =>
      cases rest with
      | nil => cases hds
      | cons c rest => exact h.ne (by decide : '\'' ∉ separators) (List.cons.inj hds).1
    | cons c cs =>
      obtain ⟨rfl, -⟩ := List.cons.inj hds
      exact hne cs rfl
  | case4 c cs hne hne' ih =>
    rw [quotedContent?.eq_4 _ _ hne hne'] at hq
    obtain ⟨x, hx, he⟩ := Option.map_eq_some_iff.mp hq
    cases he
    -- the character is no quote, so neither form of a quote applies
    have hc : c ≠ '\'' := fun hc => hne' hc
    rw [List.cons_append, quotedContent?.eq_4 _ _ (by simp [hc]) hc, ih hx]
    rfl

theorem quotedLiteral_append_detached (h : Detached rest) (ht : quotedLiteral cs = .ok t) :
    quotedLiteral (cs ++ rest) = .ok (t.before rest) := by
  unfold quotedLiteral at ht ⊢
  split at ht
  · cases ht
  · rename_i content following hq
    cases ht
    rw [quotedContent?_append_detached h hq]
    rfl

theorem namedOperator_append_detached (h : Detached rest) (cs : List Char) :
    namedOperator (cs ++ rest) = (namedOperator cs).map (before · rest) := by
  simp only [namedOperator, h.takeWhile_append inside_isAlpha, h.dropWhile_append inside_isAlpha]
  split <;> rfl

theorem word_append_detached (h : Detached rest) (cs : List Char) :
    word (cs ++ rest) = (word cs).before rest := by
  simp only [word, h.takeWhile_append inside_isNamePart, h.dropWhile_append inside_isNamePart]
  rfl

theorem comparison_append_detached (h : Detached rest) (first : Char) (strict orEqual : Comparison)
    (cs : List Char) : comparison first strict orEqual (cs ++ rest) =
      (comparison first strict orEqual cs).before rest := by
  cases cs with
  | nil =>
    cases rest with
    | nil => rfl
    | cons c rest =>
      have hc : c ≠ '=' := h.ne (by decide)
      simp [comparison, hc, before, bare]
  | cons c cs =>
    by_cases hc : c = '='
    · subst hc
      rfl
    · simp [comparison, hc, before, bare]

/-- A digit starts a timestamp or a number. -/
theorem read_of_isDigit {c : Char} (hc : c.isDigit = true) (cs : List Char) :
    read c cs = timestampOrNumber (c :: cs) := by
  unfold read
  split
  case h_11 => rw [if_pos hc]
  all_goals cases hc

/-- A letter or an underscore starts a word. -/
theorem read_of_isNameStart {c : Char} (hc : isNameStart c = true) (cs : List Char) :
    read c cs = .ok (word (c :: cs)) := by
  unfold read
  split
  case h_11 => rw [if_neg (not_isDigit_of_isNameStart hc), if_pos hc]
  all_goals cases hc

/-- **Reading does not depend on what follows a separator**: the token is the same, and what
follows it is longer. -/
theorem read_append_detached {c : Char} (h : Detached rest) (ht : read c cs = .ok t) :
    read c (cs ++ rest) = .ok (t.before rest) := by
  unfold read at ht
  split at ht
  case h_1 | h_2 | h_3 | h_4 =>
    cases ht
    rfl
  case h_5 | h_6 =>
    cases ht
    exact congrArg Except.ok (comparison_append_detached h ..)
  case h_7 =>
    split at ht
    · cases ht
      rfl
    · cases ht
  case h_8 =>
    show namedOperator (cs ++ rest) = _
    rw [namedOperator_append_detached h, ht]
    rfl
  case h_9 => exact quotedLiteral_append_detached h ht
  case h_10 =>
    split at ht
    · rename_i d ds
      split at ht
      · rename_i hd
        show (if d.isDigit then number ['-'] (d :: ds ++ rest) else _) = _
        rw [if_pos hd, number_append_detached h, ht]
        rfl
      · cases ht
    · cases ht
  case h_11 =>
    split at ht
    · rename_i hd
      rw [read_of_isDigit hd, ← List.cons_append, timestampOrNumber_append_detached h, ht]
      rfl
    · split at ht
      · rename_i hs
        cases ht
        rw [read_of_isNameStart hs, ← List.cons_append, word_append_detached h]
      · cases ht

/-- No token starts with a blank. -/
theorem not_isSpace_of_read {c : Char} (ht : read c cs = .ok t) : ¬ isSpace c = true := by
  intro hspace
  rcases isSpace_iff.mp hspace with rfl | rfl | rfl | rfl | rfl
  all_goals cases ht

end LeadingToken

/-! ## Texts -/

/-- The token, `n` bytes further on. -/
def Token.moved (n : Nat) (t : Token) : Token :=
  { t with position := t.position + n }

theorem Token.moved_comp_moved (m n : Nat) : moved m ∘ moved n = moved (n + m) := by
  funext t
  simp [moved, Nat.add_assoc]

namespace Lexed

open LeadingToken

/-- The text whose first character is at `position` has these tokens and nothing else. -/
def Consists (position : Nat) (cs : List Char) (ts : List Token) : Prop :=
  ofChars position cs = ⟨ts, none⟩

instance (position : Nat) (cs : List Char) (ts : List Token) : Decidable (Consists position cs ts) :=
  inferInstanceAs (Decidable (ofChars position cs = ⟨ts, none⟩))

variable {position n : Nat} {c : Char} {cs ds : List Char} {ts us : List Token}

theorem consists_nil : Consists position [] [] :=
  ofChars_nil position

theorem consists_space (h : isSpace c = true) :
    Consists position (c :: cs) ts ↔ Consists (position + c.utf8Size) cs ts := by
  rw [Consists, ofChars_space position cs h, Consists]

theorem consists_token {t : LeadingToken} (hr : read c cs = .ok t) :
    Consists position (c :: cs) ts ↔ ∃ us, ts = ⟨t.kind, t.lexeme, t.quoted, position⟩ :: us ∧
      Consists (position + byteLength t.spelling) t.rest us := by
  rw [Consists, ofChars_token position (not_isSpace_of_read hr) hr]
  constructor
  · intro h
    obtain ⟨htokens, hfailure⟩ := Lexed.mk.injEq .. ▸ h
    exact ⟨_, htokens.symm, congrArg (Lexed.mk _) hfailure⟩
  · rintro ⟨us, rfl, h⟩
    rw [Consists] at h
    show Lexed.mk (_ :: (ofChars (position + byteLength t.spelling) t.rest).tokens)
      (ofChars (position + byteLength t.spelling) t.rest).failure = _
    rw [h]

theorem not_consists_error {cause : LexCause} (hspace : ¬ isSpace c = true)
    (hr : read c cs = .error cause) : ¬ Consists position (c :: cs) ts := by
  rw [Consists, ofChars_error position hspace hr]
  simp

/-- A text that is read to its end is followed by what the rest gives. -/
theorem Consists.ofChars_append (h : Consists position cs ts) (hd : Detached ds) :
    ofChars position (cs ++ ds) =
      ⟨ts ++ (ofChars (position + byteLength cs) ds).tokens,
        (ofChars (position + byteLength cs) ds).failure⟩ := by
  induction position, cs using ofChars.induct generalizing ts with
  | case1 position =>
    cases (ofChars_nil position).symm.trans h
    rfl
  | case2 position c cs hspace ih =>
    rw [List.cons_append, ofChars_space _ _ hspace, ih ((consists_space hspace).mp h),
      byteLength_cons, ← Nat.add_assoc]
  | case3 position c cs hspace cause hr => exact absurd h (not_consists_error hspace hr)
  | case4 position c cs hspace t hr _ token =>
    rename_i ih
    obtain ⟨vs, rfl, hvs⟩ := (consists_token hr).mp h
    have hfollowing := ih hvs
    have hlength : token.stop + byteLength t.rest = position + byteLength (c :: cs) := by
      rw [← (byteLength_read hr).2, ← Nat.add_assoc]
      rfl
    rw [hlength] at hfollowing
    rw [List.cons_append, ofChars_token _ hspace (read_append_detached hd hr)]
    show Lexed.mk (token :: (ofChars token.stop (t.rest ++ ds)).tokens)
      (ofChars token.stop (t.rest ++ ds)).failure = _
    rw [hfollowing]
    rfl

/-- Two texts that are read to their ends, the second not in one token with the first. -/
theorem Consists.append (h : Consists position cs ts) (hd : Detached ds)
    (h' : Consists (position + byteLength cs) ds us) : Consists position (cs ++ ds) (ts ++ us) := by
  rw [Consists, h.ofChars_append hd, h']

/-- The tokens of a text do not depend on where it stands. -/
theorem Consists.moved (h : Consists position cs ts) (n : Nat) :
    Consists (position + n) cs (ts.map (Token.moved n)) := by
  induction position, cs using ofChars.induct generalizing ts with
  | case1 position =>
    cases (ofChars_nil position).symm.trans h
    exact consists_nil
  | case2 position c cs hspace ih =>
    refine (consists_space hspace).mpr ?_
    rw [Nat.add_right_comm]
    exact ih ((consists_space hspace).mp h)
  | case3 position c cs hspace cause hr => exact absurd h (not_consists_error hspace hr)
  | case4 position c cs hspace t hr _ token =>
    rename_i ih
    obtain ⟨vs, rfl, hvs⟩ := (consists_token hr).mp h
    refine (consists_token hr).mpr ⟨vs.map (Token.moved n), rfl, ?_⟩
    rw [Nat.add_right_comm]
    exact ih hvs

/-- A token that takes up the whole text. -/
theorem consists_of_read {kind : TokenKind} {lexeme : List Char} {quoted : Bool}
    (hr : read c cs = .ok ⟨kind, lexeme, quoted, []⟩) :
    Consists position (c :: cs) [⟨kind, lexeme, quoted, position⟩] :=
  (consists_token hr).mpr ⟨[], rfl, consists_nil⟩

/-- A token of one character, which nothing can follow in the same token. -/
theorem Consists.mark {kind : TokenKind} (hr : read c cs = .ok (bare kind [c] cs))
    (h : Consists (position + c.utf8Size) cs ts) :
    Consists position (c :: cs) (⟨kind, [c], false, position⟩ :: ts) :=
  (consists_token hr).mpr ⟨ts, rfl, by simpa [LeadingToken.spelling, bare] using h⟩

/-- Two texts with a space between them, where each of them stands. -/
theorem Consists.appendSpace (h : Consists position cs ts)
    (h' : Consists (position + byteLength cs + 1) ds us) :
    Consists position (cs ++ ' ' :: ds) (ts ++ us) :=
  h.append (detached_cons (by decide) ds) ((consists_space rfl).mpr h')

theorem Consists.at (h : Consists 0 cs ts) (n : Nat) : Consists n cs (ts.map (Token.moved n)) := by
  have hmoved := h.moved n
  rwa [Nat.zero_add] at hmoved

/-- Two texts with a space between them. -/
theorem Consists.spaced (h : Consists 0 cs ts) (h' : Consists 0 ds us) :
    Consists 0 (cs ++ ' ' :: ds) (ts ++ us.map (Token.moved (byteLength cs + 1))) := by
  refine h.appendSpace ?_
  rw [Nat.zero_add]
  exact h'.at _

/-- Two texts with a word between them that is one token. -/
theorem Consists.between {word : List Char} {t : Token} (h : Consists 0 cs ts)
    (hword : Consists 0 word [t]) (h' : Consists 0 ds us) :
    ∃ m n, Consists 0 (cs ++ ' ' :: (word ++ ' ' :: ds))
      (ts ++ t.moved m :: us.map (Token.moved n)) := by
  have hspaced := h.spaced (hword.spaced h')
  rw [List.singleton_append, List.map_cons, List.map_map, Token.moved_comp_moved] at hspaced
  exact ⟨_, _, hspaced⟩

/-- Two texts with a comma and a space between them. -/
theorem Consists.commaBetween (h : Consists 0 cs ts) (h' : Consists 0 ds us) :
    Consists 0 (cs ++ ',' :: ' ' :: ds)
      (ts ++ ⟨.comma, [','], false, byteLength cs⟩ :: us.map (Token.moved (byteLength cs + 2))) := by
  have hmoved := h'.moved (byteLength cs + 2)
  rw [Nat.zero_add] at hmoved
  refine h.append (detached_cons (by decide) _) ?_
  rw [Nat.zero_add]
  exact .mark rfl ((consists_space rfl).mpr hmoved)

/-- A text in parentheses. -/
theorem Consists.parenthesized (h : Consists 0 cs ts)
    (h' : Consists (position + 1 + byteLength cs + 1) ds us) :
    Consists position ('(' :: (cs ++ ')' :: ds))
      (⟨.leftParen, ['('], false, position⟩ :: (ts.map (Token.moved (position + 1)) ++
        ⟨.rightParen, [')'], false, position + 1 + byteLength cs⟩ :: us)) := by
  have hinner := h.moved (position + 1)
  rw [Nat.zero_add] at hinner
  exact .mark rfl (hinner.append (detached_cons (by decide) ds) (.mark rfl h'))

end Lexed

end RecordQuery
