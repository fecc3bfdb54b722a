import Mathlib.Data.List.TakeWhile
import RecordQuery.Filter.Coercion
import RecordQuery.Proofs.Grammar
import RecordQuery.Proofs.TokenContext

/-!
# Written literals

Every value has a text that is one literal and denotes the value: a string in
quotes with its own quotes doubled, a number by its digits, a truth value by its
word. What a string looks like does not matter, as a text in quotes in the form
of a timestamp is a string too.
-/

namespace RecordQuery

open Grammar Text

/-! ## Quotes -/

namespace Literal

/-- Reading a doubled quote undoes doubling. -/
theorem mergeQuotes_doubleQuotes (cs : List Char) : mergeQuotes (doubleQuotes cs) = cs := by
  induction cs with
  | nil => rfl
  | cons c cs ih =>
    rw [doubleQuotes]
    split
    · rename_i hc
      rw [mergeQuotes, ih, hc]
    · rename_i hc
      rw [mergeQuotes.eq_2 _ _ fun ds hq => absurd hq hc, ih]

/-- Without quotes there is nothing to double. -/
theorem doubleQuotes_of_not_mem {cs : List Char} (h : '\'' ∉ cs) : doubleQuotes cs = cs := by
  induction cs with
  | nil => rfl
  | cons c cs ih =>
    obtain ⟨hc, hcs⟩ := not_or.mp (mt List.mem_cons.mpr h)
    rw [doubleQuotes, if_neg (Ne.symm hc), ih hcs]

/-- Text without quotes stays as it is. -/
theorem mergeQuotes_of_not_mem {cs : List Char} (h : '\'' ∉ cs) : mergeQuotes cs = cs := by
  induction cs with
  | nil => rfl
  | cons c cs ih =>
    have hc : c ≠ '\'' := fun hc => h (hc ▸ List.mem_cons_self)
    rw [mergeQuotes.eq_2 _ _ fun ds hq => absurd hq hc, ih (List.not_mem_of_not_mem_cons h)]

end Literal

namespace LeadingToken

/-- Doubled quotes do not end the literal; the single one after them does. -/
theorem quotedContent?_doubleQuotes (cs : List Char) :
    quotedContent? (Literal.doubleQuotes cs ++ ['\'']) = some (Literal.doubleQuotes cs, []) := by
  induction cs with
  | nil => rfl
  | cons c cs ih =>
    rw [Literal.doubleQuotes]
    split
    · rw [List.cons_append, List.cons_append, quotedContent?, ih]
      rfl
    · rename_i hc
      rw [List.cons_append, quotedContent?.eq_4 _ _ (fun _ hq => absurd hq hc) hc, ih]
      rfl

/-- What is in quotes is read to the closing one. -/
theorem read_doubleQuotes (cs : List Char) :
    read '\'' (Literal.doubleQuotes cs ++ ['\'']) =
      .ok ⟨if Timestamp.hasForm (Literal.doubleQuotes cs) then .timestamp else .string,
        Literal.doubleQuotes cs, true, []⟩ := by
  show quotedLiteral _ = _
  rw [quotedLiteral, quotedContent?_doubleQuotes]

end LeadingToken

/-! ## Numbers -/

/-- A number with its sign and with its digits before and after the point. -/
def spellNumber (negative : Bool) (whole fraction : List Char) : List Char :=
  (if negative then ['-'] else []) ++ whole ++ (if fraction = [] then [] else '.' :: fraction)

/-- The characters are ASCII digits. -/
def Digits (cs : List Char) : Prop :=
  ∀ c ∈ cs, c.isDigit = true

theorem digits_nil : Digits [] := by
  intro c h
  cases h

theorem Digits.not_mem {cs : List Char} (h : Digits cs) {c : Char} (hc : c.isDigit = false) :
    c ∉ cs := by
  intro hmem
  rw [h c hmem] at hc
  cases hc

/-- Only its sign tells a number from its digits. -/
theorem mem_spellNumber {negative : Bool} {whole fraction : List Char} (hw : Digits whole)
    (hf : Digits fraction) {c : Char} (h : c ∈ spellNumber negative whole fraction) :
    c = '-' ∨ c = '.' ∨ c.isDigit = true := by
  rw [spellNumber, List.mem_append, List.mem_append] at h
  rcases h with (h | h) | h
  · split at h
    · exact .inl (List.mem_singleton.mp h)
    · cases h
  · exact .inr (.inr (hw c h))
  · split at h
    · cases h
    · rcases List.mem_cons.mp h with h | h
      · exact .inr (.inl h)
      · exact .inr (.inr (hf c h))

/-- A timestamp has a dash in it. -/
theorem Timestamp.leading?_eq_none {cs : List Char} (h : '-' ∉ cs) : leading? cs = none := by
  rw [leading?, Option.map_eq_none_iff]
  cases hr : Written.read? cs with
  | none => rfl
  | some x =>
    obtain ⟨w, rest⟩ := x
    rw [← Written.read?_append hr] at h
    simp [Written.spell] at h

theorem Digits.takeWhile_eq {cs : List Char} (h : Digits cs) : cs.takeWhile Char.isDigit = cs :=
  List.takeWhile_eq_self_iff.mpr h

theorem Digits.dropWhile_eq {cs : List Char} (h : Digits cs) : cs.dropWhile Char.isDigit = [] :=
  List.dropWhile_eq_nil_iff.mpr h

variable {negative : Bool} {whole fraction : List Char}

namespace LeadingToken

theorem numberDigits?_spellNumber (hw : Digits whole) (hf : Digits fraction) :
    numberDigits? (spellNumber false whole fraction) =
      some (spellNumber false whole fraction, []) := by
  have hpoint : ¬ ('.' : Char).isDigit = true := by decide
  rw [numberDigits?, spellNumber, if_neg Bool.false_ne_true, List.nil_append]
  by_cases hempty : fraction = []
  · rw [if_pos hempty, List.append_nil, hw.takeWhile_eq, hw.dropWhile_eq]
  · rw [if_neg hempty, List.takeWhile_append_of_pos hw, List.dropWhile_append_of_pos hw,
      List.takeWhile_cons_of_neg hpoint, List.dropWhile_cons_of_neg hpoint]
    simp [hf.takeWhile_eq, hf.dropWhile_eq, hempty]

theorem number_spellNumber (sign : List Char) (hw : Digits whole) (hf : Digits fraction) :
    number sign (spellNumber false whole fraction) =
      .ok (bare .number (sign ++ spellNumber false whole fraction) []) := by
  rw [number, numberDigits?_spellNumber hw hf]
  rfl

/-- A number is read to its end. -/
theorem exists_read_spellNumber (negative : Bool) (hne : whole ≠ []) (hw : Digits whole)
    (hf : Digits fraction) : ∃ c cs, spellNumber negative whole fraction = c :: cs ∧
      read c cs = .ok (bare .number (spellNumber negative whole fraction) []) := by
  obtain ⟨c, cs, rfl⟩ := List.exists_cons_of_ne_nil hne
  have hc : c.isDigit = true := hw c List.mem_cons_self
  cases negative with
  | false =>
    have hdash : '-' ∉ spellNumber false (c :: cs) fraction := by
      rw [spellNumber, if_neg Bool.false_ne_true, List.nil_append, List.mem_append, not_or]
      refine ⟨hw.not_mem rfl, ?_⟩
      split
      · exact List.not_mem_nil
      · exact List.not_mem_cons_of_ne_of_not_mem (by decide) (hf.not_mem rfl)
    refine ⟨c, _, rfl, ?_⟩
    rw [read_of_isDigit hc]
    show timestampOrNumber (spellNumber false (c :: cs) fraction) = _
    rw [timestampOrNumber, Timestamp.leading?_eq_none hdash]
    exact number_spellNumber [] hw hf
  | true =>
    refine ⟨'-', spellNumber false (c :: cs) fraction, rfl, ?_⟩
    show (if c.isDigit then number ['-'] (spellNumber false (c :: cs) fraction) else _) = _
    rw [if_pos hc]
    exact number_spellNumber ['-'] hw hf

/-- **A number is one token.** -/
theorem consists_spellNumber (negative : Bool) (hne : whole ≠ []) (hw : Digits whole)
    (hf : Digits fraction) : Lexed.Consists 0 (spellNumber negative whole fraction)
      [⟨.number, spellNumber negative whole fraction, false, 0⟩] := by
  obtain ⟨c, cs, hspelled, hread⟩ := exists_read_spellNumber negative hne hw hf
  have htoken : Lexed.Consists 0 (c :: cs) _ := Lexed.consists_of_read hread
  rwa [← hspelled] at htoken

end LeadingToken

/-! ## Integers -/

theorem Text.digits_numeral (n : Nat) : Digits (numeral n) :=
  fun _ => isDigit_of_mem_numeral

theorem Text.natural?_of_digits {cs : List Char} (hne : cs ≠ []) (h : Digits cs) :
    natural? cs = some (numeralValue cs) := by
  have hempty : cs.isEmpty = false := by simpa using hne
  rw [natural?, hempty, List.all_eq_true.mpr h]
  rfl

theorem Text.toList_intText (n : Int) :
    (intText n).toList = spellNumber (decide (n < 0)) (numeral n.natAbs) [] := by
  rw [intText, spellNumber]
  by_cases h : n < 0
  · simp [h, natText]
  · simp [h, natText]

/-- The sign is taken off, and what is left is read as a number without one. -/
theorem Text.integer?_spellNumber_eq (negative : Bool) (hne : whole ≠ []) (hw : Digits whole) :
    integer? (spellNumber negative whole fraction) =
      (natural? (spellNumber false whole fraction)).map fun n =>
        if negative then -(n : Int) else n := by
  obtain ⟨c, cs, rfl⟩ := List.exists_cons_of_ne_nil hne
  have hc := hw c List.mem_cons_self
  cases negative with
  | true => rfl
  | false =>
    -- a digit is no sign
    have hminus (ds : List Char) (h : spellNumber false (c :: cs) fraction = '-' :: ds) : False := by
      cases h
      cases hc
    have hplus (ds : List Char) (h : spellNumber false (c :: cs) fraction = '+' :: ds) : False := by
      cases h
      cases hc
    exact integer?.eq_3 _ hminus hplus

theorem Text.integer?_spellNumber (negative : Bool) (hne : whole ≠ []) (hw : Digits whole) :
    integer? (spellNumber negative whole []) =
      some (if negative then -(numeralValue whole : Int) else numeralValue whole) := by
  have hspelled : spellNumber false whole [] = whole := by simp [spellNumber]
  rw [integer?_spellNumber_eq negative hne hw, hspelled, natural?_of_digits hne hw]
  rfl

/-- **Every integer of 64 bits is read back** from its digits. -/
theorem readInt64?_intText (n : Int64) : readInt64? (intText n.toInt).toList = some n := by
  have hvalue : (if decide (n.toInt < 0) = true then -(n.toInt.natAbs : Int) else n.toInt.natAbs) =
      n.toInt := by
    split
    · rename_i h
      have := of_decide_eq_true h
      omega
    · rename_i h
      have : ¬ n.toInt < 0 := fun hlt => h (decide_eq_true hlt)
      omega
  have hbounds : Int64.minValue.toInt ≤ n.toInt ∧ n.toInt ≤ Int64.maxValue.toInt :=
    ⟨n.le_toInt, n.toInt_le⟩
  rw [readInt64?, toList_intText, integer?_spellNumber _ (numeral_ne_nil _) (digits_numeral _),
    numeralValue_numeral, hvalue]
  show (if _ then some (Int64.ofInt n.toInt) else none) = some n
  rw [if_pos hbounds, Int64.ofInt_toInt]

/-! ## Decimals -/

theorem Text.digits_paddedNumeral (width n : Nat) : Digits (paddedNumeral width n) := by
  intro c hc
  rw [paddedNumeral, List.mem_append] at hc
  rcases hc with hc | hc
  · rw [List.eq_of_mem_replicate hc]
    decide
  · exact digits_numeral n c hc

theorem Text.le_length_paddedNumeral (width n : Nat) : width ≤ (paddedNumeral width n).length := by
  rw [paddedNumeral, List.length_append, List.length_replicate]
  omega

/-- Zeros in front do not count. -/
theorem Text.numeralValue_paddedNumeral (width n : Nat) :
    numeralValue (paddedNumeral width n) = n := by
  have hzeros (k : Nat) (cs : List Char) :
      numeralValue (List.replicate k '0' ++ cs) = numeralValue cs := by
    induction k with
    | zero => rfl
    | succ k ih => exact ih
  rw [paddedNumeral, hzeros, numeralValue_numeral]

namespace Decimal

theorem underscore_not_mem_spellNumber (negative : Bool) (hw : Digits whole) (hf : Digits fraction) :
    '_' ∉ spellNumber negative whole fraction := by
  intro h
  rcases mem_spellNumber hw hf h with h | h | h
  all_goals cases h

/-- Nothing groups the digits. -/
theorem ungroup?_spellNumber (hne : whole ≠ []) (hw : Digits whole) (hf : Digits fraction) :
    ungroup? (spellNumber false whole fraction) = some (spellNumber false whole fraction) := by
  have hclean := underscore_not_mem_spellNumber false hw hf
  obtain ⟨c, cs, rfl⟩ := List.exists_cons_of_ne_nil hne
  have hc := hw c List.mem_cons_self
  have hfront : (spellNumber false (c :: cs) fraction).takeWhile (fun c => !c.isDigit) = [] := by
    show (c :: (cs ++ _)).takeWhile _ = []
    rw [List.takeWhile_cons_of_neg (by simp [hc])]
  have hall : (spellNumber false (c :: cs) fraction).filter (· != '_') =
      spellNumber false (c :: cs) fraction := by
    refine List.filter_eq_self.mpr fun d hd => ?_
    rw [bne_iff_ne]
    rintro rfl
    exact hclean hd
  rw [ungroup?, hfront, hall]
  rfl

/-- The point separates the digits. -/
theorem splitPoint_spellNumber (hw : Digits whole) :
    splitPoint (spellNumber false whole fraction) = (whole, fraction) := by
  have hpoint : ∀ c ∈ whole, (c != '.') = true := by
    intro c hc
    rw [bne_iff_ne]
    rintro rfl
    exact hw.not_mem rfl hc
  rw [splitPoint, spellNumber, if_neg Bool.false_ne_true, List.nil_append,
    List.takeWhile_append_of_pos hpoint, List.dropWhile_append_of_pos hpoint]
  by_cases hempty : fraction = []
  · simp [hempty]
  · simp [hempty]

theorem readUnsigned?_spellNumber (negative : Bool) (hne : whole ≠ []) (hw : Digits whole)
    (hf : Digits fraction) : readUnsigned? negative (spellNumber false whole fraction) =
      ofDigits? negative whole fraction := by
  have hlast : (spellNumber false whole fraction).getLast? ≠ some '_' := fun h =>
    underscore_not_mem_spellNumber false hw hf (List.mem_of_getLast? h)
  rw [readUnsigned?, ungroup?_spellNumber hne hw hf, Option.bind_some, splitPoint_spellNumber hw,
    if_neg fun h => hlast h.2]

theorem read?_spellNumber (negative : Bool) (hne : whole ≠ []) (hw : Digits whole)
    (hf : Digits fraction) :
    read? (spellNumber negative whole fraction) = ofDigits? negative whole fraction := by
  have hunsigned := readUnsigned?_spellNumber negative hne hw hf
  obtain ⟨c, cs, rfl⟩ := List.exists_cons_of_ne_nil hne
  have hc := hw c List.mem_cons_self
  cases negative with
  | true => exact hunsigned
  | false =>
    have hminus (ds : List Char) (h : spellNumber false (c :: cs) fraction = '-' :: ds) : False := by
      cases h
      cases hc
    have hplus (ds : List Char) (h : spellNumber false (c :: cs) fraction = '+' :: ds) : False := by
      cases h
      cases hc
    rw [read?.eq_3 _ hminus hplus, hunsigned]

/-- The digits of a number before its point. -/
def wholeDigits (d : Decimal) : List Char :=
  d.digits.take (d.digits.length - d.scale)

/-- The digits of a number after its point. -/
def fractionDigits (d : Decimal) : List Char :=
  d.digits.drop (d.digits.length - d.scale)

theorem scale_lt_length_digits (d : Decimal) : d.scale < d.digits.length :=
  le_length_paddedNumeral (d.scale + 1) d.coefficient

theorem digits_wholeDigits (d : Decimal) : Digits d.wholeDigits := fun c hc =>
  digits_paddedNumeral (d.scale + 1) d.coefficient c (List.mem_of_mem_take hc)

theorem digits_fractionDigits (d : Decimal) : Digits d.fractionDigits := fun c hc =>
  digits_paddedNumeral (d.scale + 1) d.coefficient c (List.mem_of_mem_drop hc)

theorem length_fractionDigits (d : Decimal) : d.fractionDigits.length = d.scale := by
  have hlength := d.scale_lt_length_digits
  rw [fractionDigits, List.length_drop]
  omega

theorem wholeDigits_ne_nil (d : Decimal) : d.wholeDigits ≠ [] := by
  have hlength := d.scale_lt_length_digits
  rw [← List.length_pos_iff, wholeDigits, List.length_take]
  omega

theorem natural?_digits (d : Decimal) :
    natural? (d.wholeDigits ++ d.fractionDigits) = some d.coefficient := by
  have hne : d.digits ≠ [] := by
    rw [← List.length_pos_iff]
    exact Nat.zero_lt_of_lt d.scale_lt_length_digits
  rw [wholeDigits, fractionDigits, List.take_append_drop,
    natural?_of_digits hne (digits_paddedNumeral (d.scale + 1) d.coefficient)]
  exact congrArg some (numeralValue_paddedNumeral (d.scale + 1) d.coefficient)

theorem written_eq (d : Decimal) :
    d.written = spellNumber d.negative d.wholeDigits d.fractionDigits := by
  have hempty : d.fractionDigits = [] ↔ d.scale = 0 := by
    rw [← List.length_eq_zero_iff, length_fractionDigits]
  simp only [spellNumber, hempty]
  rfl

/-- Digits make up the decimal that has them all, if there is one. -/
theorem ofDigits?_eq_some_iff {n : Nat} {d : Decimal}
    (hn : natural? (whole ++ fraction) = some n) :
    ofDigits? negative whole fraction = some d ↔
      d.coefficient = n ∧ d.scale = fraction.length ∧ d.negative = (negative && n != 0) := by
  rw [ofDigits?, hn]
  constructor
  · intro h
    simp only at h
    split at h
    · cases h
      exact ⟨rfl, rfl, rfl⟩
    · cases h
  · rintro ⟨rfl, hscale, hsign⟩
    obtain ⟨sign, coefficient, scale, hlt, hle, hzero⟩ := d
    simp only at hscale hsign ⊢
    subst hscale hsign
    rw [dif_pos ⟨hlt, hle⟩]

/-- **Every decimal is read back** from its digits, with its scale. -/
theorem read?_written (d : Decimal) : read? d.written = some d := by
  rw [written_eq, read?_spellNumber _ d.wholeDigits_ne_nil d.digits_wholeDigits
    d.digits_fractionDigits]
  refine (ofDigits?_eq_some_iff d.natural?_digits).mpr ⟨rfl, d.length_fractionDigits.symm, ?_⟩
  by_cases hzero : d.coefficient = 0
  · simp [d.unsigned_zero hzero]
  · simp [hzero]

end Decimal

/-! ## Values -/

namespace Datum

/-- The value as it is written in filter text: a string in quotes, with the quotes
in it doubled, and any other value as it is shown. -/
def filterText : Datum → String
  | .string s => "'" ++ String.ofList (Literal.doubleQuotes s.toList) ++ "'"
  | v => v.text

/-- The characters are one literal, and it denotes the value. -/
def SpelledBy (v : Datum) (cs : List Char) : Prop :=
  ∃ t l, Lexed.Consists 0 cs [t] ∧ Value t l ∧ l.datum? v.type = some v

theorem spelledBy_string (s : String) : SpelledBy (.string s) (filterText (.string s)).toList := by
  have htext : (filterText (.string s)).toList =
      '\'' :: (Literal.doubleQuotes s.toList ++ ['\'']) := by
    simp [filterText, String.toList_append]
  have hread := LeadingToken.read_doubleQuotes s.toList
  rw [htext]
  have hmerge := Literal.mergeQuotes_doubleQuotes s.toList
  -- a literal in the form of a timestamp is a string as well
  split at hread
  · refine ⟨_, _, Lexed.consists_of_read hread, .timestamp rfl, ?_⟩
    simp [Literal.datum?, Datum.type, hmerge]
  · refine ⟨_, _, Lexed.consists_of_read hread, .string rfl, ?_⟩
    simp [Literal.datum?, Datum.type, hmerge]

theorem quote_not_mem_spellNumber (negative : Bool) (hw : Digits whole) (hf : Digits fraction) :
    '\'' ∉ spellNumber negative whole fraction := by
  intro h
  rcases mem_spellNumber hw hf h with h | h | h
  all_goals cases h

theorem value_spellNumber (negative : Bool) (hw : Digits whole) (hf : Digits fraction)
    (position : Nat) : Value ⟨.number, spellNumber negative whole fraction, false, position⟩
      ⟨.number, spellNumber negative whole fraction, position⟩ := by
  have hquote := quote_not_mem_spellNumber negative hw hf
  have hvalue := Value.number
    (t := ⟨.number, spellNumber negative whole fraction, false, position⟩) rfl
  rwa [Literal.mergeQuotes_of_not_mem hquote] at hvalue

theorem spelledBy_integer (n : Int64) :
    SpelledBy (.integer n) (filterText (.integer n)).toList := by
  have hdigits := digits_numeral n.toInt.natAbs
  have hread := readInt64?_intText n
  show SpelledBy (.integer n) (intText n.toInt).toList
  rw [toList_intText] at hread ⊢
  refine ⟨_, _, LeadingToken.consists_spellNumber _ (numeral_ne_nil _) hdigits digits_nil,
    value_spellNumber _ hdigits digits_nil 0, ?_⟩
  exact congrArg (Option.map Datum.integer) hread

theorem spelledBy_decimal (d : Decimal) :
    SpelledBy (.decimal d) (filterText (.decimal d)).toList := by
  have hread := d.read?_written
  have htext : (filterText (.decimal d)).toList = d.written := String.toList_ofList
  rw [htext]
  rw [Decimal.written_eq] at hread ⊢
  refine ⟨_, _, LeadingToken.consists_spellNumber _ d.wholeDigits_ne_nil d.digits_wholeDigits
    d.digits_fractionDigits, value_spellNumber _ d.digits_wholeDigits d.digits_fractionDigits 0, ?_⟩
  exact congrArg (Option.map Datum.decimal) hread

theorem spelledBy_boolean (b : Bool) : SpelledBy (.boolean b) (filterText (.boolean b)).toList := by
  cases b with
  | true =>
    have htokens : Lexed.Consists 0 "true".toList [⟨.name, "true".toList, false, 0⟩] := by
      decide +kernel
    exact ⟨_, _, htokens, .boolean rfl (.inl (by decide)), by decide⟩
  | false =>
    have htokens : Lexed.Consists 0 "false".toList [⟨.name, "false".toList, false, 0⟩] := by
      decide +kernel
    exact ⟨_, _, htokens, .boolean rfl (.inr (by decide)), by decide⟩

/-- **Every value can be written**, unless it is a point in time. -/
theorem spelledBy_filterText {v : Datum} (h : v.type ≠ .timestamp) :
    v.SpelledBy v.filterText.toList := by
  cases v with
  | string s => exact spelledBy_string s
  | integer n => exact spelledBy_integer n
  | decimal d => exact spelledBy_decimal d
  | timestamp t => exact absurd rfl h
  | boolean b => exact spelledBy_boolean b

end Datum

end RecordQuery
