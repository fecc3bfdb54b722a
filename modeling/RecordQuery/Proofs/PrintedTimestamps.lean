import RecordQuery.Proofs.WrittenInstants
import RecordQuery.Proofs.WrittenValues

/-!
# Points in time that are printed

A point in time is printed in UTC, with its seconds, the fewest digits of a fraction that are
exact, and `Z` at the end. In the years of four digits such a text has the form of a timestamp and
denotes the same point in time, at the end of a leap second too. So a filter that has the text in
quotes binds what was printed.
-/

namespace RecordQuery

open Grammar Outcome Text

/-! ## Digits -/

namespace Text

variable {width n : Nat}

theorem length_numeral_le (hwidth : 0 < width) (h : n < 10 ^ width) :
    (numeral n).length ≤ width := by
  induction width generalizing n with
  | zero => cases hwidth
  | succ width ih =>
    by_cases hn : n < 10
    · rw [numeral_of_lt hn]
      exact hwidth
    · have hpos : 0 < width := by
        rcases Nat.eq_zero_or_pos width with rfl | hpos
        · exact absurd h hn
        · exact hpos
      have hlt : n / 10 < 10 ^ width := Nat.div_lt_of_lt_mul (by rwa [← Nat.pow_succ'])
      rw [numeral_of_le (Nat.not_lt.mp hn), List.length_append]
      exact Nat.succ_le_succ (ih hpos hlt)

/-- A number that has room for its digits takes all the room. -/
theorem figure_paddedNumeral (hwidth : 0 < width) (h : n < 10 ^ width) :
    Written.Figure width (paddedNumeral width n) := by
  refine ⟨?_, fun d hd => isDecimalDigit_of_isDigit (digits_paddedNumeral width n d hd)⟩
  rw [paddedNumeral, List.length_append, List.length_replicate,
    Nat.sub_add_cancel (length_numeral_le hwidth h)]

theorem positionalValue_paddedNumeral (width n : Nat) :
    positionalValue (paddedNumeral width n) = n := by
  rw [← numeralValue_eq_positionalValue, numeralValue_paddedNumeral]

theorem asciiDigits_paddedNumeral (width n : Nat) : AsciiDigits (paddedNumeral width n) :=
  asciiDigits_of_digits (digits_paddedNumeral width n)

end Text

/-! ## The fraction -/

namespace Timestamp

/-- The digits are ASCII digits, nine at most, and are exact. -/
structure ExactFraction (nanosecond : Nat) (ds : List Char) : Prop where
  digits : Digits ds
  length : ds.length ≤ 9
  value : nanosecond * 10 ^ ds.length = positionalValue ds * 10 ^ 9

variable {nanosecond : Nat}

/-- Digits that would be zeros are left out at the end. -/
theorem exactFraction_of_dvd (width : Nat) (hpos : 0 < width) (hwidth : width ≤ 9)
    (hlt : nanosecond < 10 ^ 9) (hdvd : 10 ^ (9 - width) ∣ nanosecond) :
    ExactFraction nanosecond (paddedNumeral width (nanosecond / 10 ^ (9 - width))) := by
  have hpower : 10 ^ width * 10 ^ (9 - width) = 10 ^ 9 := pow_mul_pow_sub 10 hwidth
  have hroom : nanosecond / 10 ^ (9 - width) < 10 ^ width := by
    refine Nat.div_lt_of_lt_mul ?_
    rwa [Nat.mul_comm, hpower]
  have hlength := (figure_paddedNumeral hpos hroom).length
  refine ⟨digits_paddedNumeral width _, Nat.le_trans (Nat.le_of_eq hlength) hwidth, ?_⟩
  rw [hlength, positionalValue_paddedNumeral, ← hpower, Nat.mul_comm (10 ^ width),
    ← Nat.mul_assoc, Nat.div_mul_cancel hdvd]

/-- **No digit of a fraction is lost**, and a point is printed if there are digits. -/
theorem exists_exactFraction (h : nanosecond < 10 ^ 9) :
    ∃ ds, ExactFraction nanosecond ds ∧
      fractionText nanosecond = if ds.isEmpty then [] else '.' :: ds := by
  have hprinted (width n : Nat) (hpos : 0 < width) : '.' :: paddedNumeral width n =
      if (paddedNumeral width n).isEmpty then [] else '.' :: paddedNumeral width n := by
    have hlength := le_length_paddedNumeral width n
    rw [if_neg]
    intro hempty
    rw [List.isEmpty_iff.mp hempty] at hlength
    exact absurd hlength (Nat.not_le.mpr hpos)
  unfold fractionText
  split
  · rename_i hzero
    exact ⟨[], ⟨digits_nil, Nat.zero_le 9, by rw [hzero]; rfl⟩, rfl⟩
  · split
    · rename_i hmilli
      exact ⟨_, exactFraction_of_dvd 3 (by decide) (by decide) h (Nat.dvd_of_mod_eq_zero hmilli),
        hprinted 3 _ (by decide)⟩
    · split
      · rename_i hmicro
        exact ⟨_, exactFraction_of_dvd 6 (by decide) (by decide) h (Nat.dvd_of_mod_eq_zero hmicro),
          hprinted 6 _ (by decide)⟩
      · -- nothing can be left out
        refine ⟨_, exactFraction_of_dvd 9 (by decide) (by decide) h (Nat.one_dvd _), ?_⟩
        rw [Nat.sub_self, Nat.pow_zero, Nat.div_one]
        exact hprinted 9 _ (by decide)

/-! ## The whole -/

/-- What is printed in the years of four digits. -/
def printed (t : Timestamp) (fraction : List Char) : Written :=
  ⟨paddedNumeral 4 t.date.year.natAbs, paddedNumeral 2 t.date.month, paddedNumeral 2 t.date.day,
    some ⟨paddedNumeral 2 (t.minute / 60), paddedNumeral 2 (t.minute % 60),
      some ⟨paddedNumeral 2 t.second, fraction⟩, some .utc⟩⟩

variable {t : Timestamp} {fraction : List Char}

theorem spell_printed (hyear : 0 ≤ t.date.year ∧ t.date.year ≤ 9999)
    (hfraction : fractionText t.nanosecond = if fraction.isEmpty then [] else '.' :: fraction) :
    (t.printed fraction).spell = t.written ['Z'] := by
  have hyearText : yearText t.date.year = paddedNumeral 4 t.date.year.natAbs := by
    rw [yearText, if_neg (Int.not_lt.mpr hyear.1), if_pos hyear.2]
  simp [printed, Written.spell, Written.spellTime, Written.spellSeconds, Written.spellZone,
    written, hyearText, hfraction]

theorem wellFormed_printed (hyear : 0 ≤ t.date.year ∧ t.date.year ≤ 9999)
    (hfraction : ExactFraction t.nanosecond fraction) : (t.printed fraction).WellFormed := by
  have hpair {n : Nat} (h : n < 100) : Written.Figure 2 (paddedNumeral 2 n) :=
    figure_paddedNumeral (by decide) h
  have hmonth := t.date.month_le
  have hday := t.date.day_le
  have hlast := daysInMonth_le t.date.year t.date.month
  have hminute := t.minute_lt
  have hsecond := t.second_le
  refine ⟨figure_paddedNumeral (by decide) (by omega), hpair (by omega), hpair (by omega), ?_⟩
  rintro _ ⟨⟩
  refine ⟨hpair (by omega), hpair (by omega), ?_, ?_⟩
  · rintro _ ⟨⟩
    exact ⟨hpair (by omega), fun d hd => isDecimalDigit_of_isDigit (hfraction.digits d hd),
      hfraction.length⟩
  · rintro _ ⟨⟩
    trivial

theorem exists_printed (hyear : 0 ≤ t.date.year ∧ t.date.year ≤ 9999)
    (hfraction : ExactFraction t.nanosecond fraction) : (t.printed fraction).Exists := by
  have hascii := asciiDigits_paddedNumeral
  have hvalue := positionalValue_paddedNumeral
  have hcast : (t.date.year.natAbs : Int) = t.date.year := Int.natAbs_of_nonneg hyear.1
  have hday : Calendar.HasDay t.date.year t.date.month t.date.day :=
    Calendar.hasDay_iff.mpr
      ⟨⟨t.date.month_pos, t.date.month_le⟩, t.date.day_pos, t.date.day_le⟩
  have hminute := t.minute_lt
  refine Written.exists_iff.mpr ⟨⟨⟨hascii 4 _, hascii 2 _, hascii 2 _⟩, ?_⟩, ?_, ?_⟩
  · simp only [printed, hvalue, hcast]
    exact hday
  · refine Written.asciiDigits_spellTime.mpr ⟨⟨hascii 2 _, hascii 2 _⟩, ?_, ?_⟩
    · refine Written.asciiDigits_spellSeconds.mpr ⟨?_, ?_⟩
      · rintro _ ⟨⟩
        exact hascii 2 _
      · rintro _ ⟨⟩
        exact asciiDigits_of_digits hfraction.digits
    · exact (asciiDigits_mark (by decide)).mpr asciiDigits_nil
  · simp only [printed, Option.getD_some]
    refine ⟨?_, ?_, ?_, ?_⟩
    · rw [hvalue]
      omega
    · rw [hvalue]
      omega
    · rintro _ ⟨⟩
      rw [hvalue]
      exact t.second_le
    · rintro _ ⟨⟩
      trivial

theorem denotes_printed (hyear : 0 ≤ t.date.year ∧ t.date.year ≤ 9999)
    (hfraction : ExactFraction t.nanosecond fraction) : (t.printed fraction).Denotes t := by
  have hvalue := positionalValue_paddedNumeral
  have hcast : (t.date.year.natAbs : Int) = t.date.year := Int.natAbs_of_nonneg hyear.1
  refine ⟨?_, ?_, hfraction.value⟩
  · have hzone : (some WrittenZone.utc).map WrittenZone.minutesAhead = some 0 := rfl
    simp only [printed, Option.getD_some, hvalue, hcast, WrittenTime.minuteOfDay, hzone,
      minuteNumber, Date.number]
    omega
  · exact (hvalue 2 t.second).symm

/-- **What is printed is read back** in the years of four digits. -/
theorem read?_text (t : Timestamp) (hyear : 0 ≤ t.date.year ∧ t.date.year ≤ 9999) :
    InForm t.text.toList ∧ read? t.text.toList = some t := by
  obtain ⟨ds, hds, hfraction⟩ := exists_exactFraction t.nanosecond_lt
  have hwellFormed := wellFormed_printed hyear hds
  have hspell : (t.printed ds).spell = t.text.toList := by
    rw [spell_printed hyear hfraction, text, String.toList_ofList]
  refine ⟨⟨_, hwellFormed, hspell⟩, ?_⟩
  rw [← hspell, read?_spell hwellFormed]
  exact (Written.timestamp?_eq_some_iff_denotes hwellFormed).mpr
    ⟨exists_printed hyear hds, denotes_printed hyear hds⟩

end Timestamp

/-! ## In quotes -/

/-- A point in time in quotes is one literal. -/
theorem Datum.spelledBy_quoted {t : Timestamp} (hyear : 0 ≤ t.date.year ∧ t.date.year ≤ 9999) :
    SpelledBy (.timestamp t) ('\'' :: (t.text.toList ++ ['\''])) := by
  obtain ⟨hform, hread⟩ := t.read?_text hyear
  have htoken := LeadingToken.read_doubleQuotes t.text.toList
  rw [Literal.doubleQuotes_of_not_mem hform.quote_not_mem,
    if_pos (Timestamp.hasForm_iff.mpr hform)] at htoken
  refine ⟨_, _, Lexed.consists_of_read htoken, .timestamp rfl, ?_⟩
  simp only [Literal.datum?, Datum.type, Literal.mergeQuotes_of_not_mem hform.quote_not_mem, hread,
    Option.map_some]

/-! ## In filters -/

namespace Spells

variable {r : RecordType} {f : Field} {cs : List Char} {v : Datum}

/-- A single value may stand where a list may, without parentheses. -/
theorem isIn_single (hname : isFieldName f.name.toList = true) (hf : r.field? f.name = some f)
    (hop : f.operators.contains .isIn = true) (hv : v.SpelledBy cs) (htype : v.type = f.type) :
    Spells r .term (f.name.toList ++ ' ' :: (Operator.isIn.symbol.toList ++ ' ' :: cs))
      (.leaf ⟨f, .isIn [v]⟩) ⟨1, 0, 0⟩ := by
  obtain ⟨t, l, ht, hvalue, hl⟩ := hv
  rw [htype] at hl
  have hcoerce : [l].mapM f.coerce = .ok [v] :=
    mapM_eq_ok.mpr (.cons (Field.coerce_eq_ok_iff.mpr hl) .nil)
  have hspells := predicate (.isIn [l]) hname hf hop (map_eq_ok.mpr ⟨[v], hcoerce, rfl⟩) ht
    fun _ _ n hn ho => .isIn hn ho (.single (hvalue.moved n))
  rwa [Demand.listLength_value hvalue] at hspells

/-- Every operator that takes a value that is no string asks for the written one. -/
theorem exists_test {op : Operator} (hname : isFieldName f.name.toList = true)
    (hf : r.field? f.name = some f) (hop : f.operators.contains op = true)
    (happlies : op.appliesTo f.type = true) (hstring : f.type ≠ .string)
    (harity : op.arity ≠ .nullary) (hv : v.SpelledBy cs) (htype : v.type = f.type) :
    ∃ test : Test Datum, test.values = [v] ∧
      Spells r .term (f.name.toList ++ ' ' :: (op.symbol.toList ++ ' ' :: cs))
        (.leaf ⟨f, test⟩) ⟨1, 0, 0⟩ := by
  cases op with
  | compare c => exact ⟨_, rfl, compare hname hf hop hv htype⟩
  | isIn => exact ⟨_, rfl, isIn_single hname hf hop hv htype⟩
  | pattern place => exact absurd (beq_iff_eq.mp happlies) hstring
  | null | notNull => exact absurd rfl harity

end Spells

/-- **Points in time survive being printed**: what a literal gives a field, in a year of four
digits, is printed in the form of a timestamp, is read back from its text, and is bound again by
every filter that compares the field with this text in quotes. -/
theorem Field.coerce_printed {f : Field} {l : Literal} {u : Timestamp}
    (h : f.coerce l = .ok (.timestamp u)) (hyear : 0 ≤ u.date.year ∧ u.date.year ≤ 9999) :
    Timestamp.hasForm (Datum.timestamp u).text.toList = true ∧
      Timestamp.read? (Datum.timestamp u).text.toList = some u ∧
      ∀ (decl : RecordDeclaration) (r : RecordType) (limits : Limits) (op : Operator),
        decl.resolve = .ok r → f ∈ r.fields → 1 ≤ limits.predicates →
        f.operators.contains op = true → op.arity ≠ .nullary →
        (compileFilter r limits (f.name ++ " " ++ op.symbol ++ " '" ++ (Datum.timestamp u).text ++
          "'")).map Condition.values = .ok [.timestamp u] := by
  have htype : Datum.type (.timestamp u) = f.type := type_of_coerce h
  obtain ⟨hform, hread⟩ := u.read?_text hyear
  refine ⟨Timestamp.hasForm_iff.mpr hform, hread, ?_⟩
  intro decl r limits op hr hf hlimits hop harity
  obtain ⟨fd, -, hdeclares⟩ := exists_of_mem_right (RecordDeclaration.declares_of_resolve hr) hf
  have hstring : f.type ≠ .string := by
    rw [← htype]
    exact nofun
  obtain ⟨test, hvalues, hspells⟩ := Spells.exists_test hdeclares.named
    (RecordType.field?_of_mem hr hf) hop (hdeclares.applies op hop) hstring harity
    (Datum.spelledBy_quoted hyear) htype
  have hroom : limits.Allow ⟨1, 0, 0⟩ := ⟨hlimits, Nat.zero_le _, Nat.zero_le _⟩
  have htext : (f.name ++ " " ++ op.symbol ++ " '" ++ (Datum.timestamp u).text ++ "'").toList =
      f.name.toList ++ ' ' :: (op.symbol.toList ++ ' ' :: ('\'' :: (u.text.toList ++ ['\'']))) := by
    simp [Datum.text, String.toList_append]
  rw [← htext] at hspells
  rw [Spells.compileFilter hspells.ofTerm.ofAndExpr hroom]
  exact congrArg Except.ok ((Condition.values_leaf _).trans hvalues)

/-- A second that is added on New Year's Eve, written half an hour ahead of UTC on New Year's Day. -/
theorem Field.coerce_printed_leap :
    let decl : RecordDeclaration :=
      { name := "event", fields := [{ name := "start", type := .timestamp }] }
    let start : Field := ⟨"start", "start", .timestamp, .allFor .timestamp, false⟩
    let eve : Timestamp := ⟨⟨2023, 12, 31, by decide, by decide, by decide, by decide⟩,
      23 * 60 + 59, 60, 1000, by decide, by decide, by decide⟩
    let literal : Literal := ⟨.timestamp, "2024-01-01T00:29:60.000001+0030".toList, 9⟩
    start.coerce literal = .ok (.timestamp eve) ∧
      (Datum.timestamp eve).text = "2023-12-31T23:59:60.000001Z" ∧
      Timestamp.read? "2023-12-31T23:59:60.000001Z".toList = some eve ∧
      decl.resolve = .ok ⟨"event", none, none, [start]⟩ ∧
      (compileFilter ⟨"event", none, none, [start]⟩ {}
        "start $in '2023-12-31T23:59:60.000001Z'").map Condition.values =
          .ok [.timestamp eve] := by
  intro decl start eve literal
  have hcoerce : start.coerce literal = .ok (.timestamp eve) := by decide +kernel
  have htext : (Datum.timestamp eve).text = "2023-12-31T23:59:60.000001Z" := by decide +kernel
  have hr : decl.resolve = .ok ⟨"event", none, none, [start]⟩ := by decide +kernel
  obtain ⟨-, hread, hfilter⟩ := Field.coerce_printed hcoerce (by decide)
  have hbound := hfilter decl _ {} .isIn hr (by decide) (by decide) (by decide) (by decide)
  rw [htext] at hread hbound
  exact ⟨hcoerce, htext, hread, hr, hbound⟩

end RecordQuery
