import RecordQuery.Time.Written

/-!
# The form of timestamps

Which texts have the form of a timestamp, and that reading takes the longest of them
that a text begins with. Every part but the first may be left out, so a part that is
left out could be taken for one that is written: but where something is written behind
a part, it begins with a mark of its own. So reading takes each part as it is written, or
nothing is written behind it and reading goes at least as far.
-/

namespace RecordQuery

open Text

/-! ## The form -/

namespace Written

/-- The characters are decimal digits, each of any script. -/
def Digits (ds : List Char) : Prop :=
  ∀ d ∈ ds, isDecimalDigit d = true

/-- `n` decimal digits. -/
structure Figure (n : Nat) (ds : List Char) : Prop where
  length : ds.length = n
  digits : Digits ds

end Written

open Written (Digits Figure)

/-- The offset has two digits for the hours and two for the minutes. -/
def WrittenZone.WellFormed : WrittenZone → Prop
  | .utc => True
  | .offset _ hours _ minutes => Figure 2 hours ∧ Figure 2 minutes

/-- There are two digits, and nine at most behind the point. -/
structure WrittenSeconds.WellFormed (s : WrittenSeconds) : Prop where
  seconds : Figure 2 s.seconds
  fraction : Digits s.fraction
  fractionLength : s.fraction.length ≤ 9

/-- There are two digits for the hours and two for the minutes, and what else is written is
well-formed. -/
structure WrittenTime.WellFormed (t : WrittenTime) : Prop where
  hours : Figure 2 t.hours
  minutes : Figure 2 t.minutes
  seconds : ∀ s ∈ t.seconds, s.WellFormed
  zone : ∀ z ∈ t.zone, z.WellFormed

/-- There are four digits for the year, two for the month and two for the day, and the time is
well-formed if one is written. -/
structure Written.WellFormed (w : Written) : Prop where
  year : Figure 4 w.year
  month : Figure 2 w.month
  day : Figure 2 w.day
  time : ∀ t ∈ w.time, t.WellFormed

namespace Written

variable {n : Nat} {mark : Char} {cs ds rest : List Char}

/-! ## Digits -/

theorem digits_nil : Digits [] := by
  simp [Digits]

theorem digits_cons {d : Char} : Digits (d :: ds) ↔ isDecimalDigit d = true ∧ Digits ds :=
  List.forall_mem_cons

theorem digits?_eq_some_iff : digits? n cs = some (ds, rest) ↔ Figure n ds ∧ cs = ds ++ rest := by
  constructor
  · intro h
    refine ⟨?_, (digits?_append h).symm⟩
    induction n generalizing cs ds rest with
    | zero =>
      cases h
      exact ⟨rfl, digits_nil⟩
    | succ n ih =>
      cases cs with
      | nil => cases h
      | cons c cs =>
        simp only [digits?] at h
        split at h
        · rename_i hc
          obtain ⟨⟨ds', rest'⟩, hd, he⟩ := Option.map_eq_some_iff.mp h
          cases he
          obtain ⟨hlength, hdigits⟩ := ih hd
          exact ⟨congrArg (· + 1) hlength, digits_cons.mpr ⟨hc, hdigits⟩⟩
        · cases h
  · rintro ⟨⟨hlength, hdigits⟩, rfl⟩
    induction ds generalizing n with
    | nil =>
      cases hlength
      rfl
    | cons d ds ih =>
      cases hlength
      obtain ⟨hd, hds⟩ := digits_cons.mp hdigits
      simp [digits?, hd, ih rfl hds]

theorem marked?_eq_some_iff :
    marked? mark cs = some (ds, rest) ↔ Figure 2 ds ∧ cs = mark :: ds ++ rest := by
  cases cs with
  | nil => simp [marked?]
  | cons c cs =>
    by_cases hc : c = mark
    · simp [marked?, hc, digits?_eq_some_iff]
    · simp [marked?, hc]

theorem digitsUpTo_digits (n : Nat) (cs : List Char) :
    Digits (digitsUpTo n cs).1 ∧ (digitsUpTo n cs).1.length ≤ n := by
  induction n generalizing cs with
  | zero => exact ⟨digits_nil, Nat.le_refl 0⟩
  | succ n ih =>
    cases cs with
    | nil => exact ⟨digits_nil, Nat.zero_le _⟩
    | cons c cs =>
      obtain ⟨hdigits, hlength⟩ := ih cs
      simp only [digitsUpTo]
      split
      · rename_i hc
        exact ⟨digits_cons.mpr ⟨hc, hdigits⟩, Nat.succ_le_succ hlength⟩
      · exact ⟨digits_nil, Nat.zero_le _⟩

/-- Where no digit follows, just the digits are taken. -/
theorem digitsUpTo_append_eq (hds : Digits ds) (hlength : ds.length ≤ n)
    (hrest : ∀ c ∈ rest.head?, isDecimalDigit c = false) :
    digitsUpTo n (ds ++ rest) = (ds, rest) := by
  induction ds generalizing n with
  | nil =>
    cases rest with
    | nil => cases n <;> rfl
    | cons c rest =>
      have hc := hrest c rfl
      cases n <;> simp [digitsUpTo, hc]
  | cons d ds ih =>
    obtain ⟨hd, hds⟩ := digits_cons.mp hds
    cases n with
    | zero => cases hlength
    | succ n => simp [digitsUpTo, hd, ih hds (Nat.le_of_succ_le_succ hlength)]

theorem length_digitsUpTo_le (hds : Digits ds) (hlength : ds.length ≤ n) (rest : List Char) :
    (digitsUpTo n (ds ++ rest)).2.length ≤ rest.length := by
  induction ds generalizing n with
  | nil =>
    have hsum := congrArg List.length (digitsUpTo_append n rest)
    rw [List.length_append] at hsum
    rw [List.nil_append]
    omega
  | cons d ds ih =>
    obtain ⟨hd, hds⟩ := digits_cons.mp hds
    cases n with
    | zero => cases hlength
    | succ n => simpa [digitsUpTo, hd] using ih hds (Nat.le_of_succ_le_succ hlength)

/-! ## Seconds -/

/-- No seconds, and no more digits of them, come next. -/
def SecondsEnd (cs : List Char) : Prop :=
  ∀ c ∈ cs.head?, isDecimalDigit c = false ∧ c ≠ '.' ∧ c ≠ ':'

theorem secondsEnd_nil : SecondsEnd [] := by
  intro c hc
  cases hc

/-- No mark of a zone is a digit, a point or a colon. -/
theorem secondsEnd_spellZone (z : WrittenZone) (rest : List Char) :
    SecondsEnd (spellZone z ++ rest) := by
  intro c hc
  cases z with
  | utc =>
    cases hc
    decide +kernel
  | offset negative hours colon minutes =>
    cases negative with
    | false =>
      cases hc
      decide +kernel
    | true =>
      cases hc
      decide +kernel

theorem readFraction_digits (cs : List Char) :
    Digits (readFraction cs).1 ∧ (readFraction cs).1.length ≤ 9 := by
  unfold readFraction
  split
  · split
    · exact ⟨digits_nil, Nat.zero_le _⟩
    · exact digitsUpTo_digits 9 _
  · exact ⟨digits_nil, Nat.zero_le _⟩

theorem length_readFraction_le (cs : List Char) : (readFraction cs).2.length ≤ cs.length := by
  have hsum := congrArg List.length (readFraction_append cs)
  rw [List.length_append] at hsum
  omega

/-- A fraction as it is written, from its point on. -/
def spellFraction (ds : List Char) : List Char :=
  if ds.isEmpty then [] else '.' :: ds

theorem readFraction_point {d : Char} (hd : isDecimalDigit d = true) (cs : List Char) :
    readFraction ('.' :: d :: cs) = digitsUpTo 9 (d :: cs) := by
  simp [readFraction, digitsUpTo, hd]

theorem readFraction_spell (hds : Digits ds) (hlength : ds.length ≤ 9) (hrest : SecondsEnd rest) :
    readFraction (spellFraction ds ++ rest) = (ds, rest) := by
  cases ds with
  | nil =>
    cases rest with
    | nil => rfl
    | cons c rest =>
      obtain ⟨-, hpoint, -⟩ := hrest c rfl
      simp [spellFraction, readFraction, hpoint]
  | cons d ds =>
    show readFraction ('.' :: d :: (ds ++ rest)) = _
    rw [readFraction_point (digits_cons.mp hds).1]
    exact digitsUpTo_append_eq hds hlength fun c hc => (hrest c hc).1

theorem length_readFraction_spell_le (hds : Digits ds) (hlength : ds.length ≤ 9)
    (rest : List Char) : (readFraction (spellFraction ds ++ rest)).2.length ≤ rest.length := by
  cases ds with
  | nil => exact length_readFraction_le rest
  | cons d ds =>
    show (readFraction ('.' :: d :: (ds ++ rest))).2.length ≤ _
    rw [readFraction_point (digits_cons.mp hds).1]
    exact length_digitsUpTo_le hds hlength rest

theorem readSeconds_wellFormed (cs : List Char) : ∀ s ∈ (readSeconds cs).1, s.WellFormed := by
  unfold readSeconds
  split
  · rename_i seconds rest h
    intro s hs
    cases hs
    obtain ⟨hdigits, hlength⟩ := readFraction_digits rest
    exact ⟨(marked?_eq_some_iff.mp h).1, hdigits, hlength⟩
  · intro s hs
    cases hs

theorem length_readSeconds_le (cs : List Char) : (readSeconds cs).2.length ≤ cs.length := by
  have hsum := congrArg List.length (readSeconds_append cs)
  rw [List.length_append] at hsum
  omega

theorem readSeconds_spellSeconds {s : WrittenSeconds} (hs : s.WellFormed) (rest : List Char) :
    readSeconds (spellSeconds s ++ rest) =
      (some ⟨s.seconds, (readFraction (spellFraction s.fraction ++ rest)).1⟩,
        (readFraction (spellFraction s.fraction ++ rest)).2) := by
  have hmarked : marked? ':' (spellSeconds s ++ rest) =
      some (s.seconds, spellFraction s.fraction ++ rest) :=
    marked?_eq_some_iff.mpr ⟨hs.seconds, by simp [spellSeconds, spellFraction]⟩
  rw [readSeconds, hmarked]

/-- Seconds are read as they are written, or not written, where they end. -/
theorem readSeconds_spell {s : Option WrittenSeconds} (hs : ∀ x ∈ s, x.WellFormed)
    (hrest : SecondsEnd rest) : readSeconds ((s.map spellSeconds).getD [] ++ rest) = (s, rest) := by
  cases s with
  | none =>
    cases rest with
    | nil => rfl
    | cons c rest =>
      obtain ⟨-, -, hcolon⟩ := hrest c rfl
      simp [readSeconds, marked?, hcolon]
  | some s =>
    have hwell := hs s rfl
    show readSeconds (spellSeconds s ++ rest) = _
    rw [readSeconds_spellSeconds hwell,
      readFraction_spell hwell.fraction hwell.fractionLength hrest]

theorem length_readSeconds_spell_le {s : Option WrittenSeconds} (hs : ∀ x ∈ s, x.WellFormed)
    (rest : List Char) :
    (readSeconds ((s.map spellSeconds).getD [] ++ rest)).2.length ≤ rest.length := by
  cases s with
  | none => exact length_readSeconds_le rest
  | some s =>
    have hwell := hs s rfl
    show (readSeconds (spellSeconds s ++ rest)).2.length ≤ _
    rw [readSeconds_spellSeconds hwell]
    exact length_readFraction_spell_le hwell.fraction hwell.fractionLength rest

/-! ## The zone -/

theorem offset?_wellFormed {negative : Bool} {z : WrittenZone}
    (h : offset? negative cs = some (z, rest)) : z.WellFormed := by
  unfold offset? at h
  split at h
  · cases h
  · rename_i hours following hh
    split at h
    all_goals
      obtain ⟨⟨minutes, rest'⟩, hm, he⟩ := Option.map_eq_some_iff.mp h
      cases he
      exact ⟨(digits?_eq_some_iff.mp hh).1, (digits?_eq_some_iff.mp hm).1⟩

theorem zone?_wellFormed {z : WrittenZone} (h : zone? cs = some (z, rest)) : z.WellFormed := by
  unfold zone? at h
  split at h
  · cases h
    trivial
  · exact offset?_wellFormed h
  · exact offset?_wellFormed h
  · cases h

theorem offset?_spell {hours minutes : List Char} (hh : Figure 2 hours) (hm : Figure 2 minutes)
    (negative colon : Bool) (rest : List Char) :
    offset? negative (hours ++ ((if colon then [':'] else []) ++ minutes ++ rest)) =
      some (.offset negative hours colon minutes, rest) := by
  have hminutes : digits? 2 (minutes ++ rest) = some (minutes, rest) :=
    digits?_eq_some_iff.mpr ⟨hm, rfl⟩
  rw [offset?, digits?_eq_some_iff.mpr ⟨hh, rfl⟩]
  cases colon with
  | true => simp [hminutes]
  | false =>
    -- the first of the minutes is a digit, so it is no colon
    obtain ⟨hlength, hdigits⟩ := hm
    cases minutes with
    | nil => cases hlength
    | cons d ds =>
      have hd : d ≠ ':' := by
        rintro rfl
        exact absurd (digits_cons.mp hdigits).1 (by decide +kernel)
      simp only [List.cons_append] at hminutes
      simp [hd, hminutes]

theorem zone?_spell {z : WrittenZone} (hz : z.WellFormed) (rest : List Char) :
    zone? (spellZone z ++ rest) = some (z, rest) := by
  cases z with
  | utc => rfl
  | offset negative hours colon minutes =>
    obtain ⟨hh, hm⟩ := hz
    have hoffset := offset?_spell hh hm negative colon rest
    cases negative with
    | false => simpa [spellZone, zone?] using hoffset
    | true => simpa [spellZone, zone?] using hoffset

/-- A zone is read as it is written, or not written, where nothing follows. -/
theorem readZone_spell {z : Option WrittenZone} (hz : ∀ x ∈ z, x.WellFormed) :
    readZone ((z.map spellZone).getD []) = (z, []) := by
  cases z with
  | none => rfl
  | some z =>
    have hzone := zone?_spell (hz z rfl) []
    rw [List.append_nil] at hzone
    show readZone (spellZone z) = _
    rw [readZone, hzone]

theorem readZone_wellFormed (cs : List Char) : ∀ z ∈ (readZone cs).1, z.WellFormed := by
  intro z hz
  unfold readZone at hz
  split at hz
  · rename_i hzone
    cases hz
    exact zone?_wellFormed hzone
  · cases hz

theorem length_readZone_spell_le {z : Option WrittenZone} (hz : ∀ x ∈ z, x.WellFormed)
    (rest : List Char) : (readZone ((z.map spellZone).getD [] ++ rest)).2.length ≤ rest.length := by
  cases z with
  | none =>
    have hsum := congrArg List.length (readZone_append rest)
    rw [List.length_append] at hsum
    show (readZone rest).2.length ≤ _
    omega
  | some z =>
    show (readZone (spellZone z ++ rest)).2.length ≤ _
    simp [readZone, zone?_spell (hz z rfl)]

/-! ## The time and the whole -/

theorem readTime_wellFormed (cs : List Char) : ∀ t ∈ (readTime cs).1, t.WellFormed := by
  intro t ht
  unfold readTime at ht
  split at ht
  · cases ht
  · rename_i hours rest hh
    split at ht
    · cases ht
    · rename_i minutes rest' hm
      cases ht
      exact ⟨(marked?_eq_some_iff.mp hh).1, (marked?_eq_some_iff.mp hm).1,
        readSeconds_wellFormed rest', readZone_wellFormed _⟩

/-- Hours and minutes are read as they are written, and then what comes behind them. -/
theorem readTime_spellTime {t : WrittenTime} (hh : Figure 2 t.hours) (hm : Figure 2 t.minutes)
    (rest : List Char) : readTime (spellTime t ++ rest) =
      let seconds := readSeconds ((t.seconds.map spellSeconds).getD [] ++
        ((t.zone.map spellZone).getD [] ++ rest))
      let zone := readZone seconds.2
      (some ⟨t.hours, t.minutes, seconds.1, zone.1⟩, zone.2) := by
  have hhours : marked? 'T' (spellTime t ++ rest) =
      some (t.hours, ':' :: t.minutes ++ ((t.seconds.map spellSeconds).getD [] ++
        ((t.zone.map spellZone).getD [] ++ rest))) :=
    marked?_eq_some_iff.mpr ⟨hh, by simp [spellTime]⟩
  simp only [readTime, hhours, marked?_eq_some_iff.mpr ⟨hm, rfl⟩]

theorem length_readTime_spell_le {t : Option WrittenTime} (ht : ∀ x ∈ t, x.WellFormed)
    (rest : List Char) : (readTime ((t.map spellTime).getD [] ++ rest)).2.length ≤ rest.length := by
  cases t with
  | none =>
    have hsum := congrArg List.length (readTime_append rest)
    rw [List.length_append] at hsum
    show (readTime rest).2.length ≤ _
    omega
  | some t =>
    obtain ⟨hours, minutes, seconds, zone⟩ := t
    obtain ⟨hh, hm, hs, hz⟩ := ht _ rfl
    show (readTime (spellTime _ ++ rest)).2.length ≤ _
    rw [readTime_spellTime hh hm]
    cases zone with
    | none =>
      have hzone := length_readZone_spell_le (z := none) (by simp)
        (readSeconds ((seconds.map spellSeconds).getD [] ++ rest)).2
      exact Nat.le_trans hzone (length_readSeconds_spell_le hs rest)
    | some z =>
      simp only [Option.map_some, Option.getD_some,
        readSeconds_spell hs (secondsEnd_spellZone z rest)]
      exact length_readZone_spell_le hz rest

/-- A time is read as it is written, or not written, where nothing follows. -/
theorem readTime_spell {t : Option WrittenTime} (ht : ∀ x ∈ t, x.WellFormed) :
    readTime ((t.map spellTime).getD []) = (t, []) := by
  cases t with
  | none => rfl
  | some t =>
    obtain ⟨hours, minutes, seconds, zone⟩ := t
    obtain ⟨hh, hm, hs, hz⟩ := ht _ rfl
    have hend : SecondsEnd ((zone.map spellZone).getD []) := by
      cases zone with
      | none => exact secondsEnd_nil
      | some z =>
        have hzone := secondsEnd_spellZone z []
        rwa [List.append_nil] at hzone
    have htime := readTime_spellTime (t := ⟨hours, minutes, seconds, zone⟩) hh hm []
    simp only [List.append_nil, readSeconds_spell hs hend, readZone_spell hz] at htime
    exact htime

theorem read?_wellFormed {w : Written} (h : read? cs = some (w, rest)) : w.WellFormed := by
  unfold read? at h
  split at h
  · cases h
  · rename_i year rest₁ hy
    split at h
    · cases h
    · rename_i month rest₂ hm
      split at h
      · cases h
      · rename_i day rest₃ hd
        cases h
        exact ⟨(digits?_eq_some_iff.mp hy).1, (marked?_eq_some_iff.mp hm).1,
          (marked?_eq_some_iff.mp hd).1, readTime_wellFormed rest₃⟩

/-- The date is read as it is written, and then what comes behind it. -/
theorem read?_spell_append {w : Written} (hw : w.WellFormed) (rest : List Char) :
    read? (w.spell ++ rest) =
      let time := readTime ((w.time.map spellTime).getD [] ++ rest)
      some (⟨w.year, w.month, w.day, time.1⟩, time.2) := by
  have hyear : digits? 4 (w.spell ++ rest) = some (w.year, '-' :: w.month ++
      ('-' :: w.day ++ ((w.time.map spellTime).getD [] ++ rest))) :=
    digits?_eq_some_iff.mpr ⟨hw.year, by simp [spell]⟩
  simp only [read?, hyear, marked?_eq_some_iff.mpr ⟨hw.month, rfl⟩,
    marked?_eq_some_iff.mpr ⟨hw.day, rfl⟩]

/-- Where a timestamp is written, one is read that is at least as long. -/
theorem exists_read?_spell {w : Written} (hw : w.WellFormed) (rest : List Char) :
    ∃ w' rest', read? (w.spell ++ rest) = some (w', rest') ∧ rest'.length ≤ rest.length :=
  ⟨_, _, read?_spell_append hw rest, length_readTime_spell_le hw.time rest⟩

/-- **A timestamp is read as it is written** where nothing follows. -/
theorem read?_spell {w : Written} (hw : w.WellFormed) : read? w.spell = some (w, []) := by
  have hread := read?_spell_append hw []
  simp only [List.append_nil, readTime_spell hw.time] at hread
  exact hread

/-! ## Characters -/

/-- The characters that are written between digits. -/
def marks : List Char :=
  ['-', 'T', ':', '.', 'Z', '+']

theorem isDecimalDigit_of_mem_marks {c : Char} (h : c ∈ marks) : isDecimalDigit c = false := by
  have hall : marks.all (fun c => !isDecimalDigit c) = true := by decide +kernel
  simpa using List.all_eq_true.mp hall c h

theorem mem_spellSeconds {s : WrittenSeconds} (hs : s.WellFormed) {c : Char}
    (hc : c ∈ spellSeconds s) : isDecimalDigit c = true ∨ c ∈ marks := by
  simp only [spellSeconds, List.cons_append, List.mem_cons, List.mem_append] at hc
  rcases hc with rfl | hc | hc
  · exact .inr (by decide)
  · exact .inl (hs.seconds.digits c hc)
  · split at hc
    · cases hc
    · rcases List.mem_cons.mp hc with rfl | hc
      · exact .inr (by decide)
      · exact .inl (hs.fraction c hc)

theorem mem_spellZone {z : WrittenZone} (hz : z.WellFormed) {c : Char} (hc : c ∈ spellZone z) :
    isDecimalDigit c = true ∨ c ∈ marks := by
  cases z with
  | utc =>
    cases List.mem_singleton.mp hc
    exact .inr (by decide)
  | offset negative hours colon minutes =>
    obtain ⟨hh, hm⟩ := hz
    simp only [spellZone, List.cons_append, List.mem_cons, List.mem_append] at hc
    rcases hc with rfl | (hc | hc) | hc
    · refine .inr ?_
      cases negative <;> decide
    · exact .inl (hh.digits c hc)
    · refine .inr ?_
      cases colon
      · cases hc
      · cases List.mem_singleton.mp hc
        decide
    · exact .inl (hm.digits c hc)

theorem mem_spellTime {t : WrittenTime} (ht : t.WellFormed) {c : Char} (hc : c ∈ spellTime t) :
    isDecimalDigit c = true ∨ c ∈ marks := by
  obtain ⟨hours, minutes, seconds, zone⟩ := t
  obtain ⟨hh, hm, hs, hz⟩ := ht
  simp only [spellTime, List.cons_append, List.mem_cons, List.mem_append, or_assoc] at hc
  rcases hc with rfl | hc | rfl | hc | hc | hc
  · exact .inr (by decide)
  · exact .inl (hh.digits c hc)
  · exact .inr (by decide)
  · exact .inl (hm.digits c hc)
  · cases seconds with
    | none => cases hc
    | some s => exact mem_spellSeconds (hs s rfl) hc
  · cases zone with
    | none => cases hc
    | some z => exact mem_spellZone (hz z rfl) hc

/-- **Nothing but digits and marks is written.** -/
theorem mem_spell {w : Written} (hw : w.WellFormed) {c : Char} (hc : c ∈ w.spell) :
    isDecimalDigit c = true ∨ c ∈ marks := by
  obtain ⟨year, month, day, time⟩ := w
  obtain ⟨hy, hm, hd, ht⟩ := hw
  simp only [spell, List.mem_cons, List.mem_append, or_assoc] at hc
  rcases hc with hc | rfl | hc | rfl | hc | hc
  · exact .inl (hy.digits c hc)
  · exact .inr (by decide)
  · exact .inl (hm.digits c hc)
  · exact .inr (by decide)
  · exact .inl (hd.digits c hc)
  · cases time with
    | none => cases hc
    | some t => exact mem_spellTime (ht t rfl) hc

end Written

/-! ## The longest timestamp -/

namespace Timestamp

variable {cs spelling rest : List Char}

/-- The text has the form of a timestamp. -/
def InForm (spelling : List Char) : Prop :=
  ∃ w : Written, w.WellFormed ∧ w.spell = spelling

/-- A timestamp begins with a digit, of any script. -/
theorem InForm.exists_cons (h : InForm cs) : ∃ d ds, cs = d :: ds ∧ isDecimalDigit d = true := by
  obtain ⟨⟨year, month, day, time⟩, hw, rfl⟩ := h
  cases year with
  | nil => cases hw.year.length
  | cons d ds => exact ⟨d, _, rfl, hw.year.digits d List.mem_cons_self⟩

theorem InForm.quote_not_mem (h : InForm cs) : '\'' ∉ cs := by
  obtain ⟨w, hw, rfl⟩ := h
  intro hmem
  rcases Written.mem_spell hw hmem with hdigit | hmark
  · exact absurd hdigit (by decide +kernel)
  · exact absurd hmark (by decide)

theorem inForm_of_leading? (h : leading? cs = some (spelling, rest)) : InForm spelling := by
  obtain ⟨⟨w, rest'⟩, hread, he⟩ := Option.map_eq_some_iff.mp h
  cases he
  exact ⟨w, Written.read?_wellFormed hread, rfl⟩

/-- **A text has the form of a timestamp** if and only if one is spelled by it. -/
theorem hasForm_iff : hasForm cs = true ↔ InForm cs := by
  constructor
  · intro h
    unfold hasForm at h
    split at h
    · rename_i hlead
      obtain rfl := List.isEmpty_iff.mp h
      have happend := leading?_append hlead
      rw [List.append_nil] at happend
      exact happend ▸ inForm_of_leading? hlead
    · cases h
  · rintro ⟨w, hw, rfl⟩
    rw [hasForm, leading?, Written.read?_spell hw]
    rfl

theorem exists_leading?_append (h : InForm spelling) (rest : List Char) :
    ∃ spelling' rest', leading? (spelling ++ rest) = some (spelling', rest') ∧
      rest'.length ≤ rest.length := by
  obtain ⟨w, hw, rfl⟩ := h
  obtain ⟨w', rest', hread, hlength⟩ := Written.exists_read?_spell hw rest
  exact ⟨w'.spell, rest', congrArg (Option.map _) hread, hlength⟩

/-- **Reading is longest**: of all timestamps that a text begins with, the one that leaves the
least is read. -/
theorem leading?_eq_some_iff :
    leading? cs = some (spelling, rest) ↔ InForm spelling ∧ cs = spelling ++ rest ∧
      ∀ spelling' rest', InForm spelling' → cs = spelling' ++ rest' →
        rest.length ≤ rest'.length := by
  constructor
  · intro h
    refine ⟨inForm_of_leading? h, (leading?_append h).symm, ?_⟩
    rintro spelling' rest' hform rfl
    obtain ⟨s, r, hlead, hlength⟩ := exists_leading?_append hform rest'
    cases h.symm.trans hlead
    exact hlength
  · rintro ⟨hform, rfl, hlongest⟩
    obtain ⟨s, r, hlead, hlength⟩ := exists_leading?_append hform rest
    -- both leave equally much of the same text
    have happend := leading?_append hlead
    have hle := hlongest s r (inForm_of_leading? hlead) happend.symm
    obtain ⟨rfl, rfl⟩ := List.append_inj' happend (Nat.le_antisymm hlength hle)
    exact hlead

theorem leading?_eq_none_iff :
    leading? cs = none ↔ ∀ spelling rest, InForm spelling → cs ≠ spelling ++ rest := by
  constructor
  · rintro h spelling rest hform rfl
    obtain ⟨s, r, hlead, -⟩ := exists_leading?_append hform rest
    cases h.symm.trans hlead
  · intro h
    cases hlead : leading? cs with
    | none => rfl
    | some x => exact absurd (leading?_append hlead).symm (h _ _ (inForm_of_leading? hlead))

end Timestamp

end RecordQuery
