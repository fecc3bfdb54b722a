import RecordQuery.Proofs.TokenContext

/-!
# Cut texts

A token looks ahead, but never needs what it sees there: where it stopped, it would have
stopped at the end of the text too. So a text may be cut behind any of its tokens, and
the tokens before the cut stay what they are.
-/

namespace RecordQuery

open Text

/-! ## Classes of characters -/

namespace Text

variable {p : Char → Bool} {cs rest following : List Char}

theorem dropWhile_of_append (h : (cs ++ rest).dropWhile p = following ++ rest) :
    cs.dropWhile p = following := by
  induction cs with
  | nil =>
    have hlength := (List.dropWhile_suffix p (l := rest)).length_le
    rw [List.nil_append] at h
    rw [h, List.length_append] at hlength
    have hnil : following = [] := List.eq_nil_of_length_eq_zero (by omega)
    rw [hnil, List.dropWhile_nil]
  | cons c cs ih =>
    by_cases hc : p c = true
    · rw [List.cons_append, List.dropWhile_cons_of_pos hc] at h
      rw [List.dropWhile_cons_of_pos hc, ih h]
    · rw [List.cons_append, List.dropWhile_cons_of_neg hc, ← List.cons_append] at h
      rw [List.dropWhile_cons_of_neg hc, List.append_cancel_right h]

theorem takeWhile_of_append (h : (cs ++ rest).dropWhile p = following ++ rest) :
    cs.takeWhile p = (cs ++ rest).takeWhile p := by
  have hall := List.takeWhile_append_dropWhile (p := p) (l := cs ++ rest)
  have hcs := List.takeWhile_append_dropWhile (p := p) (l := cs)
  rw [h, ← List.append_assoc, ← dropWhile_of_append h] at hall
  exact List.append_cancel_right (hcs.trans (List.append_cancel_right hall).symm)

end Text

theorem Timestamp.leading?_of_append {cs rest : List Char} {x : Option (List Char × List Char)}
    (h : leading? (cs ++ rest) = x.map (followedBy rest)) : leading? cs = x := by
  cases x with
  | none =>
    have hnone := leading?_eq_none_iff.mp h
    refine leading?_eq_none_iff.mpr ?_
    rintro spelling following hform rfl
    exact hnone spelling (following ++ rest) hform (List.append_assoc ..)
  | some x =>
    obtain ⟨spelling, following⟩ := x
    obtain ⟨hform, hcs, hlongest⟩ := leading?_eq_some_iff.mp h
    refine leading?_eq_some_iff.mpr ⟨hform, ?_, ?_⟩
    · rw [← List.append_assoc] at hcs
      exact List.append_cancel_right hcs
    · rintro spelling' following' hform' rfl
      have hle := hlongest spelling' (following' ++ rest) hform' (List.append_assoc ..)
      simpa using hle

namespace LeadingToken

variable {cs rest : List Char} {t : LeadingToken}

/-! ## Tokens -/

theorem runsOn_of_append (h : runsOn (cs ++ rest) = false) : runsOn cs = false := by
  cases cs with
  | nil => rfl
  | cons c cs => exact h

theorem numberDigits?_of_append {digits following : List Char}
    (h : numberDigits? (cs ++ rest) = some (digits, following ++ rest)) :
    numberDigits? cs = some (digits, following) := by
  unfold numberDigits? at h
  simp only at h
  split at h
  · rename_i behind hpoint
    split at h
    · cases h
    · rename_i hfraction
      obtain ⟨rfl, hdrop⟩ := Prod.mk.inj (Option.some.inj h)
      -- the fraction lies in front of the cut, and so do the digits before the point
      have hbehind := List.takeWhile_append_dropWhile (p := Char.isDigit) (l := behind)
      generalize hf : behind.takeWhile Char.isDigit = fraction at hbehind hfraction
      rw [hdrop, ← List.append_assoc] at hbehind
      rw [← hbehind] at hdrop hf hpoint
      have hpoint' : (cs ++ rest).dropWhile Char.isDigit =
          ('.' :: (fraction ++ following)) ++ rest := hpoint
      simp only [numberDigits?, dropWhile_of_append hpoint', takeWhile_of_append hpoint',
        dropWhile_of_append hdrop, takeWhile_of_append hdrop, hf]
      rw [if_neg hfraction]
  · rename_i hpoint
    obtain ⟨rfl, hdrop⟩ := Prod.mk.inj (Option.some.inj h)
    have hfollowing := dropWhile_of_append hdrop
    have hno : ∀ behind, following ≠ '.' :: behind := by
      rintro behind rfl
      exact hpoint _ hdrop
    simp only [numberDigits?, hfollowing, takeWhile_of_append hdrop]

theorem number_of_append {sign : List Char} (h : number sign (cs ++ rest) = .ok (t.before rest)) :
    number sign cs = .ok t := by
  unfold number at h
  split at h
  · cases h
  · rename_i digits following hdigits
    split at h
    · cases h
    · rename_i hruns
      obtain ⟨kind, lexeme, quoted, rest'⟩ := t
      cases h
      rw [number, numberDigits?_of_append hdigits]
      simp only [Bool.not_eq_true] at hruns
      simp [runsOn_of_append hruns, bare]

/-- A number takes the digit that it starts with. -/
theorem number_ne_before {sign : List Char} {d : Char} (hd : d.isDigit = true) :
    number sign (d :: cs) ≠ .ok (t.before (d :: cs)) := by
  intro h
  unfold number at h
  split at h
  · cases h
  · rename_i digits following hdigits
    split at h
    · cases h
    · have hrest : following = t.rest ++ d :: cs := congrArg rest (Except.ok.inj h)
      have hpos := List.length_pos_iff.mpr (numberDigits?_ne_nil hd hdigits)
      have hlength := congrArg List.length (numberDigits?_append hdigits)
      rw [hrest, List.length_append, List.length_append] at hlength
      omega

theorem timestampOrNumber_of_append (h : timestampOrNumber (cs ++ rest) = .ok (t.before rest)) :
    timestampOrNumber cs = .ok t := by
  unfold timestampOrNumber at h
  split at h
  · rename_i spelling following hlead
    split at h
    · cases h
    · rename_i hruns
      obtain ⟨kind, lexeme, quoted, rest'⟩ := t
      cases h
      rw [timestampOrNumber, Timestamp.leading?_of_append (x := some (lexeme, rest')) hlead]
      simp only [Bool.not_eq_true] at hruns
      simp [runsOn_of_append hruns, bare]
  · rename_i hlead
    rw [timestampOrNumber, Timestamp.leading?_of_append (x := none) hlead]
    exact number_of_append h

/-- The closing quote is in front of the cut, so no quote follows it there either. -/
theorem quotedContent?_of_append {content following : List Char}
    (h : quotedContent? cs = some (content, following ++ rest)) :
    quotedContent? (content ++ '\'' :: following) = some (content, following) := by
  induction cs using quotedContent?.induct generalizing content with
  | case1 => cases h
  | case2 cs ih =>
    obtain ⟨⟨content', rest'⟩, hx, he⟩ := Option.map_eq_some_iff.mp h
    cases he
    simp [quotedContent?, ih hx]
  | case3 cs hne =>
    rw [quotedContent?.eq_3 _ hne] at h
    cases h
    refine quotedContent?.eq_3 _ ?_
    rintro ds rfl
    exact hne _ rfl
  | case4 c cs hne hne' ih =>
    rw [quotedContent?.eq_4 _ _ hne hne'] at h
    obtain ⟨⟨content', rest'⟩, hx, he⟩ := Option.map_eq_some_iff.mp h
    cases he
    have hc : c ≠ '\'' := fun hc => hne' hc
    rw [List.cons_append, quotedContent?.eq_4 _ _ (by simp [hc]) hc, ih hx]
    rfl

theorem quotedLiteral_of_append (h : quotedLiteral (cs ++ rest) = .ok (t.before rest)) :
    quotedLiteral cs = .ok t := by
  unfold quotedLiteral at h
  split at h
  · cases h
  · rename_i content following hq
    obtain ⟨kind, lexeme, quoted, rest'⟩ := t
    simp only [before, Except.ok.injEq, mk.injEq] at h
    obtain ⟨rfl, rfl, rfl, rfl⟩ := h
    have hcs := quotedContent?_append hq
    rw [← List.cons_append, ← List.append_assoc] at hcs
    rw [quotedLiteral, ← List.append_cancel_right hcs, quotedContent?_of_append hq]

theorem namedOperator_of_append (h : namedOperator (cs ++ rest) = .ok (t.before rest)) :
    namedOperator cs = .ok t := by
  unfold namedOperator at h
  simp only at h
  split at h
  · rename_i op hop
    obtain ⟨kind, lexeme, quoted, rest'⟩ := t
    simp only [bare, before, Except.ok.injEq, mk.injEq] at h
    obtain ⟨rfl, rfl, rfl, hdrop⟩ := h
    simp only [namedOperator, takeWhile_of_append hdrop, dropWhile_of_append hdrop, hop]
    rfl
  · cases h

theorem word_of_append (h : word (cs ++ rest) = t.before rest) : word cs = t := by
  obtain ⟨kind, lexeme, quoted, rest'⟩ := t
  simp only [word, bare, before, mk.injEq] at h
  obtain ⟨rfl, rfl, rfl, hdrop⟩ := h
  simp [word, bare, takeWhile_of_append hdrop, dropWhile_of_append hdrop]

/-- What is left was there before the cut. -/
theorem before_bare_inj {kind : TokenKind} {lexeme : List Char}
    (h : bare kind lexeme (cs ++ rest) = t.before rest) : bare kind lexeme cs = t := by
  obtain ⟨kind', lexeme', quoted, rest'⟩ := t
  simp only [before, bare, mk.injEq] at h
  obtain ⟨rfl, rfl, rfl, hrest⟩ := h
  rw [List.append_cancel_right hrest, bare]

theorem comparison_of_ne {first : Char} {strict orEqual : Comparison}
    (h : ∀ ds, cs ≠ '=' :: ds) :
    comparison first strict orEqual cs = bare (.operator (.compare strict)) [first] cs := by
  unfold comparison
  split
  · exact absurd rfl (h _)
  · rfl

theorem comparison_of_append {first : Char} {strict orEqual : Comparison}
    (h : comparison first strict orEqual (cs ++ rest) = t.before rest) :
    comparison first strict orEqual cs = t := by
  cases cs with
  | nil =>
    by_cases hrest : ∃ ds, rest = '=' :: ds
    · -- the sign would be taken too, and then less would be left than what is cut
      obtain ⟨ds, rfl⟩ := hrest
      have hlength := congrArg (·.rest.length) h
      simp [comparison, before, bare] at hlength
      omega
    · rw [List.nil_append, comparison_of_ne fun ds hds => hrest ⟨ds, hds⟩] at h
      exact before_bare_inj h
  | cons c cs =>
    by_cases hc : c = '='
    · subst hc
      exact before_bare_inj h
    · rw [comparison_of_ne (by simp [hc])] at h ⊢
      exact before_bare_inj h

/-- **The text behind a token may be cut**: what is read in front of the cut is the same. -/
theorem read_of_append {c : Char} (h : read c (cs ++ rest) = .ok (t.before rest)) :
    read c cs = .ok t := by
  have hok {u : LeadingToken} (hu : Except.ok (ε := LexCause) u = .ok (t.before rest)) :
      u = t.before rest := Except.ok.inj hu
  unfold read at h
  split at h
  case h_1 | h_2 | h_3 | h_4 => exact congrArg _ (before_bare_inj (hok h))
  case h_5 | h_6 => exact congrArg _ (comparison_of_append (hok h))
  case h_7 =>
    cases cs with
    | nil =>
      split at h
      · rename_i following hrest
        have hlength := congrArg (·.rest.length) (hok h)
        rw [List.nil_append] at hrest
        simp [before, bare, hrest] at hlength
        omega
      · cases h
    | cons d ds =>
      split at h
      · rename_i following heq
        obtain ⟨rfl, rfl⟩ := List.cons.inj heq
        exact congrArg _ (before_bare_inj (hok h))
      · cases h
  case h_8 => exact namedOperator_of_append h
  case h_9 => exact quotedLiteral_of_append h
  case h_10 =>
    cases cs with
    | nil =>
      split at h
      · rename_i d ds hrest
        split at h
        · rename_i hd
          rw [List.nil_append] at hrest
          subst hrest
          exact absurd h (number_ne_before hd)
        · cases h
      · cases h
    | cons d ds =>
      simp only [List.cons_append] at h
      split at h
      · rename_i hd
        show (if d.isDigit then number ['-'] (d :: ds) else _) = _
        rw [if_pos hd]
        exact number_of_append h
      · cases h
  case h_11 =>
    split at h
    · rename_i hd
      rw [read_of_isDigit hd]
      exact timestampOrNumber_of_append h
    · split at h
      · rename_i hs
        rw [read_of_isNameStart hs]
        exact congrArg _ (word_of_append (hok h))
      · cases h

/-- What is read from a text is read again where just the token, and as much of what follows it
as one likes, is kept of the text. -/
theorem exists_read_cut {c : Char} {following : List Char} (h : read c cs = .ok t)
    (hrest : t.rest = following ++ rest) :
    ∃ d ds, d :: ds = t.spelling ++ following ∧ read d ds = .ok { t with rest := following } := by
  have happend := read_append h
  have hne := read_spelling_ne_nil h
  cases hs : t.spelling with
  | nil => exact absurd hs hne
  | cons d ds =>
    rw [hs, hrest, List.cons_append] at happend
    obtain ⟨rfl, rfl⟩ := List.cons.inj happend
    have hcut : read d (ds ++ following ++ rest) =
        .ok ({ t with rest := following }.before rest) := by
      rw [List.append_assoc, h, before, ← hrest]
    exact ⟨d, ds ++ following, rfl, read_of_append hcut⟩

end LeadingToken

/-! ## Texts -/

namespace Lexed

open LeadingToken

variable {position : Nat} {cs : List Char} {t : Token} {us vs : List Token}

/-- **A text may be cut in front of any of its tokens, and behind it**: the tokens before the cut
make up what is left. -/
theorem exists_cut (h : (ofChars position cs).tokens = us ++ t :: vs) :
    ∃ front behind, cs = front ++ (t.spelling ++ behind) ∧
      t.position = position + byteLength front ∧ Consists position front us ∧
      Consists position (front ++ t.spelling) (us ++ [t]) := by
  induction position, cs using ofChars.induct generalizing us with
  | case1 position =>
    rw [ofChars_nil] at h
    simp at h
  | case2 position c cs hspace ih =>
    rw [ofChars_space position cs hspace] at h
    obtain ⟨front, behind, rfl, hposition, hfront, hboth⟩ := ih h
    refine ⟨c :: front, behind, rfl, ?_, (consists_space hspace).mpr hfront,
      (consists_space hspace).mpr hboth⟩
    rw [hposition, byteLength_cons, Nat.add_assoc]
  | case3 position c cs hspace cause hr =>
    rw [ofChars_error position hspace hr] at h
    simp at h
  | case4 position c cs hspace u hr _ token =>
    rename_i ih
    rw [ofChars_token position hspace hr] at h
    have happend := read_append hr
    cases us with
    | nil =>
      obtain ⟨rfl, -⟩ := List.cons.inj h
      obtain ⟨d, ds, hds, hread⟩ := exists_read_cut hr (List.nil_append _).symm
      rw [List.append_nil] at hds
      refine ⟨[], u.rest, happend.symm, rfl, consists_nil, ?_⟩
      show Consists position u.spelling _
      rw [← hds]
      exact consists_of_read hread
    | cons u' us =>
      obtain ⟨rfl, hfollowing⟩ := List.cons.inj h
      obtain ⟨front, behind, hrest, hposition, hfront, hboth⟩ := ih hfollowing
      obtain ⟨d, ds, hds, hread⟩ := exists_read_cut hr hrest
      have hrest' : u.rest = (front ++ t.spelling) ++ behind := by
        rw [hrest, List.append_assoc]
      obtain ⟨d', ds', hds', hread'⟩ := exists_read_cut hr hrest'
      refine ⟨u.spelling ++ front, behind, ?_, ?_, ?_, ?_⟩
      · rw [← happend, hrest, List.append_assoc]
      · rw [hposition, byteLength_append, ← Nat.add_assoc]
        rfl
      · rw [← hds]
        exact (consists_token hread).mpr ⟨us, rfl, hfront⟩
      · rw [List.append_assoc, ← hds']
        exact (consists_token hread').mpr ⟨us ++ [t], rfl, hboth⟩

end Lexed

end RecordQuery
