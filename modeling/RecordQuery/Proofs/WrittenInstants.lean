import RecordQuery.Proofs.Calendar
import RecordQuery.Proofs.TimestampForm
import RecordQuery.Proofs.WrittenNumbers

/-!
# The point in time that is written

A text in the form of a timestamp denotes a point in time if its digits are ASCII digits, the
calendar has its day, and its time and its offset are on the clock. The point in time is told by
its minute: that of the day and the time of day as they are written, less the offset. Seconds and
fractions stay as they are written, a sixty-first second too. How the zone is written does not
matter beyond its offset.
-/

namespace RecordQuery

open Text

/-! ## Digits -/

namespace Text

variable {cs ds : List Char} {n : Nat}

/-- All decimal digits of the text are ASCII digits. -/
def AsciiDigits (cs : List Char) : Prop :=
  ∀ c ∈ cs, isDecimalDigit c = true → c.isDigit = true

instance (cs : List Char) : Decidable (AsciiDigits cs) :=
  List.decidableBAll (fun c => isDecimalDigit c = true → c.isDigit = true) cs

theorem asciiDigits_nil : AsciiDigits [] := by
  intro c hc
  cases hc

theorem asciiDigits_append : AsciiDigits (cs ++ ds) ↔ AsciiDigits cs ∧ AsciiDigits ds :=
  List.forall_mem_append

theorem asciiDigits_of_digits (h : Digits ds) : AsciiDigits ds :=
  fun d hd _ => h d hd

/-- A mark is no digit. -/
theorem asciiDigits_mark {c : Char} (hc : c ∈ Written.marks) :
    AsciiDigits (c :: cs) ↔ AsciiDigits cs := by
  simp [AsciiDigits, Written.isDecimalDigit_of_mem_marks hc]

/-- Decimal digits are read if they are ASCII digits. -/
theorem natural?_eq_some_iff (hne : ds ≠ []) (hds : Written.Digits ds) :
    natural? ds = some n ↔ AsciiDigits ds ∧ positionalValue ds = n := by
  by_cases h : AsciiDigits ds
  · have hdigits : Digits ds := fun d hd => h d hd (hds d hd)
    simp [natural?_of_digits hne hdigits, numeralValue_eq_positionalValue, h]
  · have hexists : ∃ d ∈ ds, d.isDigit = false := by
      by_contra hnone
      refine h fun d hd _ => Bool.not_eq_false _ ▸ fun hdigit => hnone ⟨d, hd, hdigit⟩
    obtain ⟨d, hd, hdigit⟩ := hexists
    simp [natural?_eq_none hd hdigit, h]

theorem natural?_figure (hds : Written.Figure (n + 1) ds) {m : Nat} :
    natural? ds = some m ↔ AsciiDigits ds ∧ positionalValue ds = m := by
  refine natural?_eq_some_iff ?_ hds.digits
  rintro rfl
  cases hds.length

/-- Zeros behind a number make it that many times ten times as great. -/
theorem positionalValue_append_zeros (ds : List Char) (k : Nat) :
    positionalValue (ds ++ List.replicate k '0') = positionalValue ds * 10 ^ k := by
  have hzero : '0'.toNat - '0'.toNat = 0 := rfl
  simp only [positionalValue, List.reverse_append, List.reverse_replicate, List.map_append,
    List.map_replicate, hzero, Nat.ofDigits_append, Nat.ofDigits_replicate_zero,
    List.length_replicate]
  rw [Nat.zero_add, Nat.mul_comm]

theorem positionalValue_lt (hds : Digits ds) : positionalValue ds < 10 ^ ds.length := by
  have hdigit : ∀ d ∈ ds.reverse.map (fun d => d.toNat - '0'.toNat), d < 10 := by
    intro d hd
    obtain ⟨c, hc, rfl⟩ := List.mem_map.mp hd
    have hrange := hds c (List.mem_reverse.mp hc)
    simp only [Char.isDigit, Bool.and_eq_true, decide_eq_true_eq, UInt32.le_iff_toNat_le] at hrange
    have hle : c.toNat ≤ 57 := hrange.2
    show c.toNat - 48 < 10
    omega
  have hlt := Nat.ofDigits_lt_base_pow_length (by decide) hdigit
  rwa [List.length_map, List.length_reverse] at hlt

end Text

/-! ## What is written -/

namespace WrittenZone

/-- The hours of the offset are those of a clock, and so are the minutes. -/
def OnClock : WrittenZone → Prop
  | .utc => True
  | .offset _ hours _ minutes => positionalValue hours < 24 ∧ positionalValue minutes < 60

/-- How many minutes clocks are ahead of UTC. -/
def minutesAhead : WrittenZone → Int
  | .utc => 0
  | .offset negative hours _ minutes =>
    let ahead : Int := 60 * positionalValue hours + positionalValue minutes
    if negative then -ahead else ahead

end WrittenZone

namespace WrittenTime

/-- The time is on the clock, perhaps in the second that is added to a minute. -/
structure OnClock (t : WrittenTime) : Prop where
  hours : positionalValue t.hours < 24
  minutes : positionalValue t.minutes < 60
  seconds : ∀ s ∈ t.seconds, positionalValue s.seconds ≤ 60
  zone : ∀ z ∈ t.zone, z.OnClock

/-- The minutes since midnight in UTC; clocks without a zone show UTC. -/
def minuteOfDay (t : WrittenTime) : Int :=
  60 * positionalValue t.hours + positionalValue t.minutes -
    (t.zone.map WrittenZone.minutesAhead).getD 0

/-- The second of the minute, the first if none is written. -/
def second (t : WrittenTime) : Nat :=
  (t.seconds.map fun s => positionalValue s.seconds).getD 0

def fraction (t : WrittenTime) : List Char :=
  (t.seconds.map WrittenSeconds.fraction).getD []

/-- The point in time is the one on the day with this time. -/
structure DenotesOn (t : WrittenTime) (day : Int) (u : Timestamp) : Prop where
  minute : u.minuteNumber = 1440 * day + t.minuteOfDay
  second : u.second = t.second
  /-- The fraction of a second is exact. -/
  nanosecond : u.nanosecond * 10 ^ t.fraction.length = positionalValue t.fraction * 10 ^ 9

end WrittenTime

namespace Written

/-- The calendar has the day, the clock has the time, and the digits are ASCII digits. -/
structure Exists (w : Written) : Prop where
  digits : AsciiDigits w.spell
  date : Calendar.HasDay (positionalValue w.year) (positionalValue w.month)
    (positionalValue w.day)
  time : ∀ t ∈ w.time, t.OnClock

/-- The midnight that a date alone means, in UTC. -/
def midnight : WrittenTime :=
  ⟨['0', '0'], ['0', '0'], none, none⟩

/-- **The point in time is the one that is written.** -/
def Denotes (w : Written) (u : Timestamp) : Prop :=
  (w.time.getD midnight).DenotesOn (Calendar.dayNumber (positionalValue w.year)
    (positionalValue w.month) (positionalValue w.day)) u

end Written

/-- A time on a day is one point in time. -/
theorem WrittenTime.DenotesOn.unique {t : WrittenTime} {day : Int} {u v : Timestamp}
    (hu : t.DenotesOn day u) (hv : t.DenotesOn day v) : u = v := by
  have hpos : 0 < 10 ^ t.fraction.length := Nat.pow_pos (by decide)
  refine Timestamp.ext_minuteNumber (hu.minute.trans hv.minute.symm)
    (hu.second.trans hv.second.symm) ?_
  exact Nat.eq_of_mul_eq_mul_right hpos (hu.nanosecond.trans hv.nanosecond.symm)

/-! ## Reading the parts -/

theorem UtcOffset.ext_minutes {o p : UtcOffset} (h : o.minutes = p.minutes) : o = p := by
  obtain ⟨minutes, _, _⟩ := o
  cases h
  rfl

/-- An offset is read if it is on the clock. -/
theorem UtcOffset.ofParts?_eq_some_iff {negative : Bool} {hours minutes : Nat} {o : UtcOffset} :
    ofParts? negative hours minutes = some o ↔ (hours < 24 ∧ minutes < 60) ∧
      o.minutes = if negative then -(60 * hours + minutes : Int) else 60 * hours + minutes := by
  have hsum : (hours * 60 + minutes : Int) = 60 * hours + minutes := by omega
  unfold ofParts?
  constructor
  · intro h
    split at h
    · rename_i hclock
      refine ⟨hclock, ?_⟩
      rw [← hsum]
      cases negative
      · cases h
        rfl
      · cases h
        rfl
    · cases h
  · rintro ⟨hclock, hminutes⟩
    rw [dif_pos hclock]
    cases negative
    · exact congrArg some (ext_minutes (hsum.trans hminutes.symm))
    · exact congrArg some (ext_minutes ((congrArg Neg.neg hsum).trans hminutes.symm))

namespace Written

variable {ds : List Char} {n : Nat}

/-- The digits that are not written are zeros. -/
theorem nanoseconds?_eq_some_iff (hds : Written.Digits ds) (hlength : ds.length ≤ 9) :
    nanoseconds? ds = some n ↔
      AsciiDigits ds ∧ n * 10 ^ ds.length = positionalValue ds * 10 ^ 9 := by
  have hpower : 10 ^ (9 - ds.length) * 10 ^ ds.length = 10 ^ 9 := pow_sub_mul_pow 10 hlength
  have hpos : 0 < 10 ^ ds.length := Nat.pow_pos (by decide)
  have hvalue : positionalValue ds * 10 ^ (9 - ds.length) = n ↔
      n * 10 ^ ds.length = positionalValue ds * 10 ^ 9 := by
    rw [← hpower, ← Nat.mul_assoc, Nat.mul_right_cancel_iff hpos, eq_comm]
  have hzeros : RecordQuery.Digits (List.replicate (9 - ds.length) '0') := by
    intro d hd
    rw [List.eq_of_mem_replicate hd]
    rfl
  unfold nanoseconds?
  -- no digits are no fraction; reading would refuse them
  by_cases hempty : ds = []
  · subst hempty
    simp [asciiDigits_nil, positionalValue, eq_comm]
  · have hne : ds ++ List.replicate (9 - ds.length) '0' ≠ [] :=
      List.append_ne_nil_of_left_ne_nil hempty _
    have hall : Written.Digits (ds ++ List.replicate (9 - ds.length) '0') :=
      List.forall_mem_append.mpr ⟨hds, fun d hd => isDecimalDigit_of_isDigit (hzeros d hd)⟩
    rw [if_neg (by simpa using hempty), natural?_eq_some_iff hne hall, asciiDigits_append,
      positionalValue_append_zeros, hvalue, and_iff_left (asciiDigits_of_digits hzeros)]

/-! ### The zone -/

theorem asciiDigits_spellZone {negative colon : Bool} {hours minutes : List Char} :
    AsciiDigits (spellZone (.offset negative hours colon minutes)) ↔
      AsciiDigits hours ∧ AsciiDigits minutes := by
  have hsign : (if negative then '-' else '+') ∈ marks := by
    cases negative <;> decide
  have hcolon : AsciiDigits (if colon then [':'] else []) := by
    cases colon
    · exact asciiDigits_nil
    · exact (asciiDigits_mark (by decide)).mpr asciiDigits_nil
  rw [spellZone, List.cons_append, List.cons_append, asciiDigits_mark hsign, asciiDigits_append,
    asciiDigits_append, and_iff_left hcolon]

theorem zoneOffset?_eq_some_iff {z : Option WrittenZone} (hz : ∀ x ∈ z, x.WellFormed)
    {o : UtcOffset} : zoneOffset? z = some o ↔
      AsciiDigits ((z.map spellZone).getD []) ∧ (∀ x ∈ z, x.OnClock) ∧
        o.minutes = (z.map WrittenZone.minutesAhead).getD 0 := by
  have hzero : UtcOffset.zero = o ↔ o.minutes = 0 := by
    constructor
    · rintro rfl
      rfl
    · intro h
      exact UtcOffset.ext_minutes h.symm
  cases z with
  | none => simp [zoneOffset?, asciiDigits_nil, hzero]
  | some z =>
    cases z with
    | utc =>
      have hmark : AsciiDigits (spellZone .utc) :=
        (asciiDigits_mark (by decide)).mpr asciiDigits_nil
      simp [zoneOffset?, hmark, WrittenZone.OnClock, WrittenZone.minutesAhead, hzero]
    | offset negative hours colon minutes =>
      obtain ⟨hh, hm⟩ := hz _ rfl
      simp only [zoneOffset?, Option.bind_eq_bind, Option.bind_eq_some_iff, natural?_figure hh,
        natural?_figure hm, UtcOffset.ofParts?_eq_some_iff, Option.map_some, Option.getD_some,
        asciiDigits_spellZone]
      constructor
      · rintro ⟨_, ⟨hah, rfl⟩, _, ⟨ham, rfl⟩, hclock, hminutes⟩
        refine ⟨⟨hah, ham⟩, ?_, hminutes⟩
        rintro _ ⟨⟩
        exact hclock
      · rintro ⟨⟨hah, ham⟩, hclock, hminutes⟩
        exact ⟨_, ⟨hah, rfl⟩, _, ⟨ham, rfl⟩, hclock _ rfl, hminutes⟩

/-! ### The seconds -/

theorem asciiDigits_spellSeconds {s : Option WrittenSeconds} :
    AsciiDigits ((s.map spellSeconds).getD []) ↔
      (∀ x ∈ s, AsciiDigits x.seconds) ∧ ∀ x ∈ s, AsciiDigits x.fraction := by
  cases s with
  | none => simp [asciiDigits_nil]
  | some s =>
    have hfraction : AsciiDigits (if s.fraction.isEmpty then [] else '.' :: s.fraction) ↔
        AsciiDigits s.fraction := by
      split
      · rename_i hempty
        rw [List.isEmpty_iff.mp hempty]
      · exact asciiDigits_mark (by decide)
    simp only [Option.map_some, Option.getD_some, spellSeconds, List.cons_append,
      asciiDigits_mark (c := ':') (by decide), asciiDigits_append, hfraction, Option.mem_some_iff,
      forall_eq']

theorem second?_eq_some_iff {s : Option WrittenSeconds} (hs : ∀ x ∈ s, x.WellFormed) :
    (s.map (natural? ·.seconds)).getD (some 0) = some n ↔
      (∀ x ∈ s, AsciiDigits x.seconds) ∧ (s.map (positionalValue ·.seconds)).getD 0 = n := by
  cases s with
  | none => simp
  | some s => simp [natural?_figure (hs s rfl).seconds]

theorem nanosecond?_eq_some_iff {s : Option WrittenSeconds} (hs : ∀ x ∈ s, x.WellFormed) :
    (s.map (nanoseconds? ·.fraction)).getD (some 0) = some n ↔
      (∀ x ∈ s, AsciiDigits x.fraction) ∧
        n * 10 ^ ((s.map WrittenSeconds.fraction).getD []).length =
          positionalValue ((s.map WrittenSeconds.fraction).getD []) * 10 ^ 9 := by
  cases s with
  | none => simp [positionalValue, eq_comm]
  | some s =>
    have hread := nanoseconds?_eq_some_iff (n := n) (hs s rfl).fraction (hs s rfl).fractionLength
    simpa using hread

/-! ### The time -/

theorem shown?_eq_some_iff {date : Date} {hours minutes seconds nanoseconds : Nat}
    {u : Timestamp} : shown? date hours minutes seconds nanoseconds = some u ↔
      ((hours < 24 ∧ minutes < 60) ∧ seconds ≤ 60 ∧ nanoseconds < 1000000000) ∧
        u.date = date ∧ u.minute = hours * 60 + minutes ∧ u.second = seconds ∧
        u.nanosecond = nanoseconds := by
  unfold shown?
  constructor
  · intro h
    split at h
    · rename_i hclock
      cases h
      exact ⟨hclock, rfl, rfl, rfl, rfl⟩
    · cases h
  · rintro ⟨hclock, rfl, hminute, rfl, rfl⟩
    obtain ⟨date, minute, second, nanosecond, _, _, _⟩ := u
    simp only at hminute hclock ⊢
    subst hminute
    rw [dif_pos hclock]

theorem asciiDigits_spellTime {t : WrittenTime} : AsciiDigits (spellTime t) ↔
    (AsciiDigits t.hours ∧ AsciiDigits t.minutes) ∧
      AsciiDigits ((t.seconds.map spellSeconds).getD []) ∧
      AsciiDigits ((t.zone.map spellZone).getD []) := by
  simp only [spellTime, List.cons_append, List.append_assoc,
    asciiDigits_mark (c := 'T') (by decide), asciiDigits_mark (c := ':') (by decide),
    asciiDigits_append, and_assoc]

variable {date : Date} {t : WrittenTime} {u : Timestamp}

/-- **What is read is written**, and the clock has it. -/
theorem denotesOn_of_timeOn? (ht : t.WellFormed) (h : timeOn? date t = some u) :
    AsciiDigits (spellTime t) ∧ t.OnClock ∧ t.DenotesOn date.number u := by
  -- each part was read, which says what it is and that it is on the clock
  simp only [timeOn?, Option.bind_eq_bind, Option.bind_eq_some_iff, Option.map_eq_some_iff,
    natural?_figure ht.hours, natural?_figure ht.minutes, second?_eq_some_iff ht.seconds,
    nanosecond?_eq_some_iff ht.seconds, zoneOffset?_eq_some_iff ht.zone,
    shown?_eq_some_iff] at h
  obtain ⟨_, ⟨hah, rfl⟩, _, ⟨ham, rfl⟩, _, ⟨has, rfl⟩, n, ⟨haf, hn⟩, offset, ⟨haz, hz, hoffset⟩,
    shown, ⟨⟨⟨hh, hm⟩, hs, -⟩, hdate, hminute, hsecond, hnanosecond⟩, rfl⟩ := h
  have hbelow := shown.second_ofLocal offset
  refine ⟨asciiDigits_spellTime.mpr ⟨⟨hah, ham⟩, asciiDigits_spellSeconds.mpr ⟨has, haf⟩, haz⟩,
    ⟨hh, hm, ?_, hz⟩, ⟨?_, ?_, ?_⟩⟩
  · intro s hsome
    simpa [Option.mem_def.mp hsome] using hs
  · rw [shown.minuteNumber_ofLocal, hoffset, Timestamp.minuteNumber, hdate, hminute,
      WrittenTime.minuteOfDay]
    omega
  · exact hbelow.1.trans hsecond
  · rw [hbelow.2, hnanosecond]
    exact hn

/-- An offset on the clock is shorter than a day. -/
theorem exists_zoneOffset? {z : Option WrittenZone} (hz : ∀ x ∈ z, x.WellFormed)
    (hascii : AsciiDigits ((z.map spellZone).getD [])) (hclock : ∀ x ∈ z, x.OnClock) :
    ∃ o, zoneOffset? z = some o := by
  have hbounds : -1440 < (z.map WrittenZone.minutesAhead).getD 0 ∧
      (z.map WrittenZone.minutesAhead).getD 0 < 1440 := by
    cases z with
    | none => simp
    | some z =>
      cases z with
      | utc => simp [WrittenZone.minutesAhead]
      | offset negative hours colon minutes =>
        obtain ⟨hh, hm⟩ := hclock _ rfl
        simp only [Option.map_some, Option.getD_some, WrittenZone.minutesAhead]
        split <;> omega
  exact ⟨⟨_, hbounds.1, hbounds.2⟩, (zoneOffset?_eq_some_iff hz).mpr ⟨hascii, hclock, rfl⟩⟩

/-- The fraction of a second is shorter than a second. -/
theorem exists_nanosecond? {s : Option WrittenSeconds} (hs : ∀ x ∈ s, x.WellFormed)
    (hascii : ∀ x ∈ s, AsciiDigits x.fraction) :
    ∃ n < 1000000000, (s.map (nanoseconds? ·.fraction)).getD (some 0) = some n := by
  cases s with
  | none => exact ⟨0, by decide, rfl⟩
  | some s =>
    obtain ⟨-, hdigits, hlength⟩ := hs s rfl
    have hascii := hascii s rfl
    have hlt := positionalValue_lt fun d hd => hascii d hd (hdigits d hd)
    have hpower : 10 ^ s.fraction.length * 10 ^ (9 - s.fraction.length) = 1000000000 :=
      pow_mul_pow_sub 10 hlength
    refine ⟨positionalValue s.fraction * 10 ^ (9 - s.fraction.length), ?_, ?_⟩
    · rw [← hpower]
      exact Nat.mul_lt_mul_of_pos_right hlt (Nat.pow_pos (by decide))
    · refine (nanoseconds?_eq_some_iff hdigits hlength).mpr ⟨hascii, ?_⟩
      rw [Nat.mul_assoc, Nat.mul_comm (10 ^ (9 - s.fraction.length)), hpower]
      rfl

/-- **A time on the clock is read.** -/
theorem exists_timeOn? (date : Date) (ht : t.WellFormed) (hascii : AsciiDigits (spellTime t))
    (hclock : t.OnClock) : ∃ u, timeOn? date t = some u := by
  obtain ⟨⟨hah, ham⟩, has, haz⟩ := asciiDigits_spellTime.mp hascii
  obtain ⟨has, haf⟩ := asciiDigits_spellSeconds.mp has
  obtain ⟨n, hn, hfraction⟩ := exists_nanosecond? ht.seconds haf
  obtain ⟨offset, hoffset⟩ := exists_zoneOffset? ht.zone haz hclock.zone
  have hh := (natural?_figure ht.hours).mpr ⟨hah, rfl⟩
  have hm := (natural?_figure ht.minutes).mpr ⟨ham, rfl⟩
  have hs := (second?_eq_some_iff ht.seconds).mpr ⟨has, rfl⟩
  have hsecond : t.second ≤ 60 := by
    unfold WrittenTime.second
    cases hseconds : t.seconds with
    | none => simp
    | some s => exact hclock.seconds s hseconds
  have hrange : (positionalValue t.hours < 24 ∧ positionalValue t.minutes < 60) ∧
      t.second ≤ 60 ∧ n < 1000000000 := ⟨⟨hclock.hours, hclock.minutes⟩, hsecond, hn⟩
  -- nothing but the clock can refuse what the parts have been read to
  obtain ⟨shown, hshown⟩ : ∃ shown, shown? date (positionalValue t.hours)
      (positionalValue t.minutes) t.second n = some shown := ⟨_, dif_pos hrange⟩
  refine ⟨shown.ofLocal offset, ?_⟩
  simp only [timeOn?, Option.bind_eq_bind, hh, hm, hs, hfraction, hoffset, Option.bind_some]
  exact congrArg (Option.map _) hshown

/-! ### The whole -/

theorem timeOn?_midnight (date : Date) : timeOn? date midnight = shown? date 0 0 0 0 := by
  have hzeros : natural? ['0', '0'] = some 0 := by decide +kernel
  simp [timeOn?, midnight, hzeros, zoneOffset?, shown?, Timestamp.ofLocal, UtcOffset.zero]

theorem wellFormed_midnight : midnight.WellFormed := by
  have hzeros : Figure 2 ['0', '0'] := ⟨rfl, List.all_eq_true.mp (by decide +kernel)⟩
  refine ⟨hzeros, hzeros, ?_, ?_⟩
  · rintro _ ⟨⟩
  · rintro _ ⟨⟩

theorem asciiDigits_spell {w : Written} : AsciiDigits w.spell ↔
    (AsciiDigits w.year ∧ AsciiDigits w.month ∧ AsciiDigits w.day) ∧
      AsciiDigits (spellTime (w.time.getD midnight)) := by
  have htime : AsciiDigits ((w.time.map spellTime).getD []) ↔
      AsciiDigits (spellTime (w.time.getD midnight)) := by
    cases w.time with
    | none =>
      have hzeros : AsciiDigits ['0', '0'] := asciiDigits_of_digits (List.all_eq_true.mp rfl)
      exact iff_of_true asciiDigits_nil
        (asciiDigits_spellTime.mpr ⟨⟨hzeros, hzeros⟩, asciiDigits_nil, asciiDigits_nil⟩)
    | some t => rfl
  simp only [spell, List.cons_append, List.append_assoc, asciiDigits_append,
    asciiDigits_mark (c := '-') (by decide), htime, and_assoc]

theorem exists_iff {w : Written} : w.Exists ↔
    ((AsciiDigits w.year ∧ AsciiDigits w.month ∧ AsciiDigits w.day) ∧
      Calendar.HasDay (positionalValue w.year) (positionalValue w.month)
        (positionalValue w.day)) ∧
      AsciiDigits (spellTime (w.time.getD midnight)) ∧ (w.time.getD midnight).OnClock := by
  have hmidnight : midnight.OnClock := by
    refine ⟨by decide, by decide, ?_, ?_⟩
    · rintro _ ⟨⟩
    · rintro _ ⟨⟩
  have htime : (∀ t ∈ w.time, t.OnClock) ↔ (w.time.getD midnight).OnClock := by
    cases w.time with
    | none => simp [hmidnight]
    | some t => simp
  rw [← htime]
  constructor
  · rintro ⟨hascii, hdate, hclock⟩
    obtain ⟨hdigits, htime⟩ := asciiDigits_spell.mp hascii
    exact ⟨⟨hdigits, hdate⟩, htime, hclock⟩
  · rintro ⟨⟨hdigits, hdate⟩, htime, hclock⟩
    exact ⟨asciiDigits_spell.mpr ⟨hdigits, htime⟩, hdate, hclock⟩

/-- A date alone is read as that date with its midnight. -/
theorem timestamp?_eq_bind (w : Written) : w.timestamp? =
    (natural? w.year).bind fun year => (natural? w.month).bind fun month =>
      (natural? w.day).bind fun day => (Date.ofParts? year month day).bind fun date =>
        timeOn? date (w.time.getD midnight) := by
  obtain ⟨year, month, day, time⟩ := w
  cases time with
  | none =>
    simp only [Option.getD_none, timeOn?_midnight]
    rfl
  | some t => rfl

/-- The day is read if the calendar has it, and then the time on that day. -/
theorem timestamp?_eq_some_iff {w : Written} (hw : w.WellFormed) {u : Timestamp} :
    w.timestamp? = some u ↔
      (AsciiDigits w.year ∧ AsciiDigits w.month ∧ AsciiDigits w.day) ∧
        ∃ date : Date, Date.ofParts? (positionalValue w.year) (positionalValue w.month)
          (positionalValue w.day) = some date ∧ timeOn? date (w.time.getD midnight) = some u := by
  simp only [timestamp?_eq_bind, Option.bind_eq_some_iff, natural?_figure hw.year,
    natural?_figure hw.month, natural?_figure hw.day]
  constructor
  · rintro ⟨_, ⟨hy, rfl⟩, _, ⟨hm, rfl⟩, _, ⟨hd, rfl⟩, hdate⟩
    exact ⟨⟨hy, hm, hd⟩, hdate⟩
  · rintro ⟨⟨hy, hm, hd⟩, hdate⟩
    exact ⟨_, ⟨hy, rfl⟩, _, ⟨hm, rfl⟩, _, ⟨hd, rfl⟩, hdate⟩

theorem wellFormed_getD_midnight {w : Written} (hw : w.WellFormed) :
    (w.time.getD midnight).WellFormed := by
  cases htime : w.time with
  | none => exact wellFormed_midnight
  | some t => exact hw.time t htime

/-- **What is read is the point in time that is written.** -/
theorem denotes_of_timestamp? {w : Written} (hw : w.WellFormed) {u : Timestamp}
    (h : w.timestamp? = some u) : w.Exists ∧ w.Denotes u := by
  obtain ⟨hdigits, date, hdate, htime⟩ := (timestamp?_eq_some_iff hw).mp h
  obtain ⟨hday, hyear, hmonth, hdayOf⟩ := Date.ofParts?_eq_some_iff.mp hdate
  obtain ⟨hascii, hclock, hdenotes⟩ := denotesOn_of_timeOn? (wellFormed_getD_midnight hw) htime
  rw [Date.number, hyear, hmonth, hdayOf] at hdenotes
  exact ⟨exists_iff.mpr ⟨⟨hdigits, hday⟩, hascii, hclock⟩, hdenotes⟩

/-- **What is written is read** if it exists. -/
theorem exists_timestamp? {w : Written} (hw : w.WellFormed) (h : w.Exists) :
    ∃ u, w.timestamp? = some u := by
  obtain ⟨⟨hdigits, hday⟩, hascii, hclock⟩ := exists_iff.mp h
  have hdate : ∃ date : Date, Date.ofParts? (positionalValue w.year) (positionalValue w.month)
      (positionalValue w.day) = some date :=
    ⟨_, dif_pos (Calendar.hasDay_iff.mp hday)⟩
  obtain ⟨date, hdate⟩ := hdate
  obtain ⟨u, hu⟩ := exists_timeOn? date (wellFormed_getD_midnight hw) hascii hclock
  exact ⟨u, (timestamp?_eq_some_iff hw).mpr ⟨hdigits, date, hdate, hu⟩⟩

/-- **There is at most one point in time that is written.** -/
theorem timestamp?_eq_some_iff_denotes {w : Written} (hw : w.WellFormed) {u : Timestamp} :
    w.timestamp? = some u ↔ w.Exists ∧ w.Denotes u := by
  constructor
  · exact denotes_of_timestamp? hw
  · rintro ⟨hexists, hdenotes⟩
    obtain ⟨v, hv⟩ := exists_timestamp? hw hexists
    rwa [(denotes_of_timestamp? hw hv).2.unique hdenotes] at hv

end Written

/-! ## Zones that are alike -/

/-- The same offset is written in two ways: `Z`, a zero offset or no zone at all, and an offset
with a colon or without. -/
inductive WrittenZone.Alike : Option WrittenZone → Option WrittenZone → Prop where
  | unwritten : Alike (some .utc) none
  | zero (negative colon : Bool) :
      Alike (some .utc) (some (.offset negative ['0', '0'] colon ['0', '0']))
  | colon (negative : Bool) (hours minutes : List Char) :
      Alike (some (.offset negative hours true minutes))
        (some (.offset negative hours false minutes))

namespace Written

/-- The same date and time with another zone. -/
def withZone (w : Written) (z : Option WrittenZone) : Written :=
  { w with time := w.time.map fun t => { t with zone := z } }

theorem zoneOffset?_eq_of_alike {z z' : Option WrittenZone} (h : WrittenZone.Alike z z') :
    zoneOffset? z' = zoneOffset? z := by
  cases h with
  | unwritten => rfl
  | zero negative colon => decide +kernel +revert
  | colon negative hours minutes => rfl

theorem wellFormed_of_alike {z z' : Option WrittenZone} (h : WrittenZone.Alike z z')
    (hz : ∀ x ∈ z, x.WellFormed) : ∀ x ∈ z', x.WellFormed := by
  cases h with
  | unwritten =>
    intro x hx
    cases hx
  | zero negative colon =>
    have hzeros : Figure 2 ['0', '0'] := wellFormed_midnight.hours
    intro x hx
    cases hx
    exact ⟨hzeros, hzeros⟩
  | colon negative hours minutes =>
    have hfigures : WrittenZone.WellFormed (.offset negative hours true minutes) := hz _ rfl
    intro x hx
    cases hx
    exact hfigures

variable {w : Written} {z : Option WrittenZone}

theorem timestamp?_withZone (h : ∀ t ∈ w.time, WrittenZone.Alike t.zone z) :
    (w.withZone z).timestamp? = w.timestamp? := by
  obtain ⟨year, month, day, time⟩ := w
  cases time with
  | none => rfl
  | some t =>
    have htime (date : Date) : timeOn? date { t with zone := z } = timeOn? date t := by
      simp only [timeOn?, zoneOffset?_eq_of_alike (h t rfl)]
    simp only [timestamp?, withZone, Option.map_some, htime]

theorem wellFormed_withZone (hw : w.WellFormed) (h : ∀ t ∈ w.time, WrittenZone.Alike t.zone z) :
    (w.withZone z).WellFormed := by
  obtain ⟨hyear, hmonth, hday, htime⟩ := hw
  refine ⟨hyear, hmonth, hday, ?_⟩
  intro t' ht'
  obtain ⟨t, ht, rfl⟩ := Option.map_eq_some_iff.mp ht'
  obtain ⟨hh, hm, hs, hz⟩ := htime t ht
  exact ⟨hh, hm, hs, wellFormed_of_alike (h t ht) hz⟩

end Written

/-! ## Reading a text -/

namespace Timestamp

theorem read?_spell {w : Written} (hw : w.WellFormed) : read? w.spell = w.timestamp? := by
  rw [read?, Written.read?_spell hw]

/-- **A text in the form of a timestamp denotes the point in time that is written.** It denotes one
if and only if the calendar has its day, the clock its time and its offset, and all digits are
ASCII digits; and an offset that is written in another way does not change it. -/
theorem read?_of_hasForm {cs : List Char} (h : hasForm cs = true) :
    ∃ w : Written, (w.WellFormed ∧ w.spell = cs) ∧
      ((∃ u, read? cs = some u) ↔ w.Exists) ∧
      (∀ u, read? cs = some u ↔ w.Exists ∧ w.Denotes u) ∧
      ∀ z, (∀ t ∈ w.time, WrittenZone.Alike t.zone z) →
        read? (w.withZone z).spell = read? cs := by
  obtain ⟨w, hw, rfl⟩ := hasForm_iff.mp h
  rw [read?_spell hw]
  refine ⟨w, ⟨hw, rfl⟩, ?_, fun u => Written.timestamp?_eq_some_iff_denotes hw, ?_⟩
  · constructor
    · rintro ⟨u, hu⟩
      exact (Written.denotes_of_timestamp? hw hu).1
    · exact Written.exists_timestamp? hw
  · intro z hz
    rw [read?_spell (Written.wellFormed_withZone hw hz), Written.timestamp?_withZone hz]

/-- Half past midnight on the first of March in a leap year, with a second that is added and an hour
ahead of UTC, is on the last of February; and there is no such day a year later. -/
theorem read?_of_hasForm_leap :
    let march := "2000-03-01T00:30:60.25+01:00".toList
    let february : Timestamp := ⟨⟨2000, 2, 29, by decide, by decide, by decide, by decide⟩,
      23 * 60 + 30, 60, 250000000, by decide, by decide, by decide⟩
    (hasForm march = true ∧ read? march = some february ∧
      read? "2000-03-01T00:30:60.25+0100".toList = some february) ∧
    hasForm "2001-02-29".toList = true ∧ ∀ u, read? "2001-02-29".toList ≠ some u := by
  intro march february
  have hmarch : hasForm march = true := by decide +kernel
  have hday : hasForm "2001-02-29".toList = true := by decide +kernel
  refine ⟨⟨hmarch, ?_⟩, hday, ?_⟩
  · obtain ⟨w, ⟨hw, hspell⟩, -, hread, halike⟩ := read?_of_hasForm hmarch
    have hwritten : Written.read? march = some (w, []) := hspell ▸ Written.read?_spell hw
    have hparts : Written.read? march = some (⟨"2000".toList, "03".toList, "01".toList,
        some ⟨"00".toList, "30".toList, some ⟨"60".toList, "25".toList⟩,
          some (.offset false "01".toList true "00".toList)⟩⟩, []) := by
      decide +kernel
    cases hparts.symm.trans hwritten
    have hascii : AsciiDigits march := by decide +kernel
    have hfebruary : read? march = some february := by
      refine (hread february).mpr ⟨⟨hspell ▸ hascii, ?_, ?_⟩, ⟨?_, rfl, ?_⟩⟩
      · exact Calendar.hasDay_iff.mpr (by decide +kernel)
      · rintro _ ⟨⟩
        refine ⟨by decide +kernel, by decide +kernel, ?_, ?_⟩
        · rintro _ ⟨⟩
          decide +kernel
        · rintro _ ⟨⟩
          exact ⟨by decide +kernel, by decide +kernel⟩
      · decide +kernel
      · decide +kernel
    refine ⟨hfebruary, ?_⟩
    have hbare := halike (some (.offset false "01".toList false "00".toList)) <| by
      rintro _ ⟨⟩
      exact .colon false _ _
    rw [hfebruary] at hbare
    exact hbare
  · obtain ⟨w, ⟨hw, hspell⟩, -, hread, -⟩ := read?_of_hasForm hday
    have hwritten : Written.read? "2001-02-29".toList = some (w, []) :=
      hspell ▸ Written.read?_spell hw
    have hparts : Written.read? "2001-02-29".toList =
        some (⟨"2001".toList, "02".toList, "29".toList, none⟩, []) := by
      decide +kernel
    cases hparts.symm.trans hwritten
    intro u hu
    have hexists := Calendar.hasDay_iff.mp ((hread u).mp hu).1.date
    exact absurd hexists (by decide +kernel)

end Timestamp

end RecordQuery
