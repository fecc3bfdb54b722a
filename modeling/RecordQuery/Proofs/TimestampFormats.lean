import RecordQuery.Proofs.Formats

/-!
# The formats of timestamps

Six formats that are tried one after the other: a strict one, and then one for each form that a
timestamp may have. They read more than the form of timestamps. But a text that has the form
is read in no other way by any of them, so the first that reads it gives the point in time
that is written; and if a digit is of another script, none of them does.
-/

namespace RecordQuery

open Text
open Written (Figure)

/-! ## The formats -/

namespace TimestampFormat

/-- `YYYY-MM-DD`, and then some items. -/
def date (strict : Bool) (items : List FormatItem) : List FormatItem :=
  .number strict .year :: .mark ['-'] :: .number strict .month :: .mark ['-'] ::
    .number strict .day :: items

/-- `Thh:mm`, and then some items. A strict format takes a small letter or a space as well. -/
def clock (strict : Bool) (items : List FormatItem) : List FormatItem :=
  .mark (if strict then ['T', 't', ' '] else ['T']) :: .number strict .hours :: .mark [':'] ::
    .number strict .minutes :: items

/-- `:ss`, perhaps a fraction, and then some items. -/
def seconds (strict : Bool) (items : List FormatItem) : List FormatItem :=
  .mark [':'] :: .number strict .seconds :: .fraction :: items

/-- The formats, in the order in which they are tried: the one of RFC 3339, then those with an
offset, those without one and that of a date alone. -/
def all : List (List FormatItem) := [
  date true (clock true (seconds true [.offset true])),
  date false (clock false (seconds false [.offset false])),
  date false (clock false [.offset false]),
  date false (clock false (seconds false [])),
  date false (clock false []),
  date false []]

/-- What is left of the formats behind hours and minutes, where they ask for those. -/
def afterClock : List (List FormatItem) := [
  seconds true [.offset true],
  seconds false [.offset false],
  [.offset false],
  seconds false [],
  []]

end TimestampFormat

namespace Timestamp

/-- The text with a numeric offset in place of the mark of UTC at its end. -/
def withoutMark (cs : List Char) : List Char :=
  if cs.getLast? = some 'Z' then cs.dropLast ++ ['+', '0', '0', ':', '0', '0'] else cs

/-- The point in time that the first format gives that reads the text and gives one. -/
def parse? (cs : List Char) : Option Timestamp :=
  TimestampFormat.all.findSome? fun items =>
    (FormatItem.readAll? items {} (withoutMark cs)).bind TimeReading.timestamp?

/-- More is read than has the form of a timestamp. -/
example : (parse? "2020-1-5T7:03".toList).isSome ∧ hasForm "2020-1-5T7:03".toList = false := by
  decide +kernel

end Timestamp

/-! ## Years -/

/-- A year is at most one apart from that of the day before or after. -/
theorem Date.year_beside (date : Date) :
    (date.year - 1 ≤ date.previous.year ∧ date.previous.year ≤ date.year) ∧
      date.year ≤ date.next.year ∧ date.next.year ≤ date.year + 1 := by
  unfold Date.previous Date.next
  refine ⟨?_, ?_⟩
  all_goals
    split
    · dsimp only
      omega
    · split
      all_goals
        dsimp only
        omega

theorem Timestamp.year_ofLocal (shown : Timestamp) (offset : UtcOffset) :
    shown.date.year - 1 ≤ (shown.ofLocal offset).date.year ∧
      (shown.ofLocal offset).date.year ≤ shown.date.year + 1 := by
  have hbeside := shown.date.year_beside
  unfold ofLocal
  dsimp only
  split
  · dsimp only
    omega
  · split
    all_goals
      dsimp only
      omega

/-- The years of four digits, and those beside them, are in the calendar of formats. -/
theorem TimeReading.inCalendar_of_year {date : Date} (hlow : -1 ≤ date.year)
    (hhigh : date.year ≤ 10000) : inCalendar date = true := by
  simp only [inCalendar, Bool.and_eq_true, decide_eq_true_eq]
  omega

/-! ## What is read -/

namespace TimeReading

def withClock (r : TimeReading) (t : WrittenTime) : TimeReading :=
  { r with hours := numeralValue t.hours, minutes := numeralValue t.minutes }

def withSeconds (r : TimeReading) : Option WrittenSeconds → TimeReading
  | none => r
  | some s => { r with
    seconds := numeralValue s.seconds
    nanoseconds := numeralValue s.fraction * 10 ^ (9 - s.fraction.length) }

def withZone (r : TimeReading) : Option WrittenZone → TimeReading
  | some (.offset negative hours _ minutes) => r.withOffset negative hours minutes
  | _ => r

end TimeReading

namespace Written

open FormatItem

/-- The parts of the date. -/
def dateReading (w : Written) : TimeReading where
  year := numeralValue w.year
  month := numeralValue w.month
  day := numeralValue w.day

/-- The parts of what is written. -/
def reading (w : Written) : TimeReading :=
  match w.time with
  | none => w.dateReading
  | some t => ((w.dateReading.withClock t).withSeconds t.seconds).withZone t.zone

variable {w : Written} {t : WrittenTime} {s : WrittenSeconds} {items : List FormatItem}
  {strict : Bool} {r : TimeReading} {rest : List Char}

theorem readAll?_date (hw : w.WellFormed)
    (hascii : AsciiDigits w.year ∧ AsciiDigits w.month ∧ AsciiDigits w.day) :
    readAll? (TimestampFormat.date strict items) {} w.spell =
      readAll? items w.dateReading ((w.time.map spellTime).getD []) := by
  obtain ⟨hay, ham, had⟩ := hascii
  have hmark : '-' ∈ ['-'] := List.mem_cons_self
  simp only [TimestampFormat.date, spell, List.cons_append, List.append_assoc]
  rw [readAll?_of_read? (read?_number .year hw.year hay _),
    readAll?_of_read? (read?_mark hmark _),
    readAll?_of_read? (read?_number .month hw.month ham _),
    readAll?_of_read? (read?_mark hmark _),
    readAll?_of_read? (read?_number .day hw.day had _)]
  rfl

theorem readAll?_clock (ht : t.WellFormed)
    (hascii : AsciiDigits t.hours ∧ AsciiDigits t.minutes) :
    readAll? (TimestampFormat.clock strict items) r (spellTime t) =
      readAll? items (r.withClock t)
        ((t.seconds.map spellSeconds).getD [] ++ (t.zone.map spellZone).getD []) := by
  obtain ⟨hah, ham⟩ := hascii
  have hmark : 'T' ∈ if strict then ['T', 't', ' '] else ['T'] := by
    cases strict <;> decide
  have hcolon : ':' ∈ [':'] := List.mem_cons_self
  simp only [TimestampFormat.clock, spellTime, List.cons_append, List.append_assoc]
  rw [readAll?_of_read? (read?_mark hmark _),
    readAll?_of_read? (read?_number .hours ht.hours hah _),
    readAll?_of_read? (read?_mark hcolon _),
    readAll?_of_read? (read?_number .minutes ht.minutes ham _)]
  rfl

theorem readAll?_clock_nil : readAll? (TimestampFormat.clock strict items) r [] = none := rfl

theorem readAll?_seconds (hs : s.WellFormed)
    (hascii : AsciiDigits s.seconds ∧ AsciiDigits s.fraction) (hr : r.nanoseconds = 0)
    (hrest : SecondsEnd rest) :
    readAll? (TimestampFormat.seconds strict items) r (spellSeconds s ++ rest) =
      readAll? items (r.withSeconds (some s)) rest := by
  obtain ⟨has, haf⟩ := hascii
  have hcolon : ':' ∈ [':'] := List.mem_cons_self
  have hspell : spellSeconds s ++ rest =
      ':' :: (s.seconds ++ (spellFraction s.fraction ++ rest)) := by
    simp [spellSeconds, spellFraction]
  have hset : (r.set .seconds (numeralValue s.seconds)).nanoseconds = 0 := hr
  rw [hspell, TimestampFormat.seconds, readAll?_of_read? (read?_mark hcolon _),
    readAll?_of_read? (read?_number .seconds hs.seconds has _),
    readAll?_of_read? (read?_fraction hset hs.fraction haf hs.fractionLength hrest)]
  rfl

/-- Without their colon seconds are not read. -/
theorem readAll?_seconds_eq_none {cs : List Char} (h : ∀ c ∈ cs.head?, c ≠ ':') :
    readAll? (TimestampFormat.seconds strict items) r cs = none := by
  cases cs with
  | nil => rfl
  | cons c cs =>
    have hc : c ∉ [':'] := by simpa using h c rfl
    exact readAll?_of_read?_eq_none (read?_mark_of_not_mem hc _)

theorem readAll?_offset_nil : readAll? (.offset strict :: items) r [] = none := by
  cases strict <;> rfl

theorem readAll?_offset_seconds (s : WrittenSeconds) (rest : List Char) :
    readAll? (.offset strict :: items) r (spellSeconds s ++ rest) = none := by
  cases strict <;> rfl

/-! ## Which formats read what -/

/-- One of the answers is the reading, and none is another. -/
def ReadsOnly (r : TimeReading) (answers : List (Option TimeReading)) : Prop :=
  some r ∈ answers ∧ ∀ x ∈ answers, x = none ∨ x = some r

theorem ReadsOnly.findSome? {α : Type} {answers : List (Option TimeReading)}
    (h : ReadsOnly r answers) (f : TimeReading → Option α) :
    (answers.findSome? fun x => x.bind f) = f r := by
  obtain ⟨hmem, honly⟩ := h
  cases hf : f r with
  | none =>
    rw [List.findSome?_eq_none_iff]
    intro x hx
    rcases honly x hx with rfl | rfl
    · rfl
    · exact hf
  | some a =>
    have hsome : (answers.findSome? fun x => x.bind f).isSome = true :=
      List.findSome?_isSome_iff.mpr ⟨some r, hmem, by simp [hf]⟩
    obtain ⟨b, hb⟩ := Option.isSome_iff_exists.mp hsome
    obtain ⟨x, hx, hxb⟩ := List.exists_of_findSome?_eq_some hb
    rcases honly x hx with rfl | rfl
    · cases hxb
    · rw [hb, ← hxb]
      exact hf

variable {seconds : Option WrittenSeconds}

/-- Where no zone is written, only formats without an offset read. -/
theorem readsOnly_afterClock_unzoned (hs : ∀ s ∈ seconds, s.WellFormed)
    (hascii : AsciiDigits ((seconds.map spellSeconds).getD [])) (hr : r.nanoseconds = 0) :
    ReadsOnly (r.withSeconds seconds)
      (TimestampFormat.afterClock.map (readAll? · r ((seconds.map spellSeconds).getD []))) := by
  simp only [TimestampFormat.afterClock, List.map_cons, List.map_nil]
  cases seconds with
  | none =>
    have hnone (strict : Bool) (items : List FormatItem) :
        readAll? (TimestampFormat.seconds strict items) r [] = none :=
      readAll?_seconds_eq_none nofun
    simp [ReadsOnly, hnone, readAll?_offset_nil, readAll?_nil, TimeReading.withSeconds]
  | some s =>
    have hread (strict : Bool) (items : List FormatItem) :
        readAll? (TimestampFormat.seconds strict items) r (spellSeconds s) =
          readAll? items (r.withSeconds (some s)) [] := by
      rw [← List.append_nil (spellSeconds s)]
      exact readAll?_seconds (hs s rfl)
        ((asciiDigits_spellSeconds.mp hascii).imp (· s rfl) (· s rfl)) hr secondsEnd_nil
    have hoffset : readAll? [.offset false] r (spellSeconds s) = none := rfl
    have hover : readAll? [] r (spellSeconds s) = none := rfl
    simp [ReadsOnly, hread, hoffset, hover, readAll?_offset_nil, readAll?_nil]

/-- Where an offset is written, only formats with one read, and strict ones only if it has a
colon. -/
theorem readsOnly_afterClock_zoned {negative colon : Bool} {hours minutes : List Char}
    (hs : ∀ s ∈ seconds, s.WellFormed)
    (hz : (WrittenZone.offset negative hours colon minutes).WellFormed)
    (has : AsciiDigits ((seconds.map spellSeconds).getD []))
    (haz : AsciiDigits (spellZone (.offset negative hours colon minutes)))
    (hr : r.nanoseconds = 0) :
    ReadsOnly ((r.withSeconds seconds).withOffset negative hours minutes)
      (TimestampFormat.afterClock.map (readAll? · r ((seconds.map spellSeconds).getD [] ++
        spellZone (.offset negative hours colon minutes)))) := by
  obtain ⟨hh, hm⟩ := hz
  obtain ⟨hah, ham⟩ := asciiDigits_spellZone.mp haz
  have hend := secondsEnd_spellZone (.offset negative hours colon minutes) []
  rw [List.append_nil] at hend
  have hzone (strict : Bool) (r : TimeReading) :
      readAll? [.offset strict] r (spellZone (.offset negative hours colon minutes)) =
        if strict && !colon then none else some (r.withOffset negative hours minutes) := by
    rw [readAll?, read?_offset hh hm hah ham]
    split <;> rfl
  have hover (r : TimeReading) :
      readAll? [] r (spellZone (.offset negative hours colon minutes)) = none := rfl
  simp only [TimestampFormat.afterClock, List.map_cons, List.map_nil]
  cases seconds with
  | none =>
    have hnone (strict : Bool) (items : List FormatItem) :
        readAll? (TimestampFormat.seconds strict items) r
          (spellZone (.offset negative hours colon minutes)) = none :=
      readAll?_seconds_eq_none fun c hc => (hend c hc).2.2
    simp [ReadsOnly, hnone, hzone, hover, TimeReading.withSeconds]
  | some s =>
    have hread (strict : Bool) (items : List FormatItem) :
        readAll? (TimestampFormat.seconds strict items) r
            (spellSeconds s ++ spellZone (.offset negative hours colon minutes)) =
          readAll? items (r.withSeconds (some s))
            (spellZone (.offset negative hours colon minutes)) :=
      readAll?_seconds (hs s rfl)
        ((asciiDigits_spellSeconds.mp has).imp (· s rfl) (· s rfl)) hr hend
    have hlonger : readAll? [] r
        (spellSeconds s ++ spellZone (.offset negative hours colon minutes)) = none := rfl
    simp [ReadsOnly, hread, hzone, hover, hlonger, readAll?_offset_seconds]

/-- **Some of the formats read what has the form**, and none reads anything else in it. -/
theorem readsOnly_formats (hw : w.WellFormed) (hascii : AsciiDigits w.spell)
    (hmark : ∀ t ∈ w.time, t.zone ≠ some .utc) :
    ReadsOnly w.reading (TimestampFormat.all.map (readAll? · {} w.spell)) := by
  obtain ⟨hdigits, htime⟩ := asciiDigits_spell.mp hascii
  have hdate (strict : Bool) (items : List FormatItem) :
      readAll? (TimestampFormat.date strict items) {} w.spell =
        readAll? items w.dateReading ((w.time.map spellTime).getD []) :=
    readAll?_date hw hdigits
  simp only [TimestampFormat.all, List.map_cons, List.map_nil, hdate]
  cases hsome : w.time with
  | none =>
    -- only the last format has no time
    simp [ReadsOnly, readAll?_clock_nil, readAll?_nil, reading, hsome]
  | some t =>
    rw [hsome, Option.getD_some] at htime
    obtain ⟨hclockDigits, has, haz⟩ := asciiDigits_spellTime.mp htime
    have ht := hw.time t hsome
    have hclock (strict : Bool) (items : List FormatItem) :
        readAll? (TimestampFormat.clock strict items) w.dateReading (spellTime t) =
          readAll? items (w.dateReading.withClock t)
            ((t.seconds.map spellSeconds).getD [] ++ (t.zone.map spellZone).getD []) :=
      readAll?_clock ht hclockDigits
    have hover : readAll? [] w.dateReading (spellTime t) = none := rfl
    have hr : (w.dateReading.withClock t).nanoseconds = 0 := rfl
    have hreading : w.reading =
        ((w.dateReading.withClock t).withSeconds t.seconds).withZone t.zone := by
      rw [reading, hsome]
    have hafter : ReadsOnly w.reading (TimestampFormat.afterClock.map (readAll? ·
        (w.dateReading.withClock t)
        ((t.seconds.map spellSeconds).getD [] ++ (t.zone.map spellZone).getD []))) := by
      rw [hreading]
      cases hzone : t.zone with
      | none =>
        rw [Option.map_none, Option.getD_none, List.append_nil]
        exact readsOnly_afterClock_unzoned ht.seconds has hr
      | some z =>
        rw [hzone] at haz
        cases z with
        | utc => exact absurd hzone (hmark t hsome)
        | offset negative hours colon minutes =>
          exact readsOnly_afterClock_zoned ht.seconds (ht.zone _ hzone) has haz hr
    simpa [ReadsOnly, TimestampFormat.afterClock, hclock, hover] using hafter

/-! ## The point in time -/

theorem natural?_of_figure {n : Nat} {ds : List Char} (hds : Figure (n + 1) ds)
    (hascii : AsciiDigits ds) : natural? ds = some (numeralValue ds) :=
  (natural?_figure hds).mpr ⟨hascii, (numeralValue_eq_positionalValue ds).symm⟩

theorem nanoseconds?_of_digits {ds : List Char} (hds : Digits ds) (hascii : AsciiDigits ds)
    (hlength : ds.length ≤ 9) :
    nanoseconds? ds = some (numeralValue ds * 10 ^ (9 - ds.length)) := by
  have hpower : 10 ^ (9 - ds.length) * 10 ^ ds.length = 10 ^ 9 := pow_sub_mul_pow 10 hlength
  refine (nanoseconds?_eq_some_iff hds hlength).mpr ⟨hascii, ?_⟩
  rw [numeralValue_eq_positionalValue, Nat.mul_assoc, hpower]

/-- A date alone has the parts of its midnight. -/
theorem reading_eq (w : Written) : w.reading =
    ((w.dateReading.withClock (w.time.getD midnight)).withSeconds
      (w.time.getD midnight).seconds).withZone (w.time.getD midnight).zone := by
  unfold reading
  cases w.time <;> rfl

/-- A time on the clock is read from its parts. -/
theorem timeOn?_eq (ht : t.WellFormed) (hascii : AsciiDigits (spellTime t)) (date : Date)
    (hr : r = ((w.dateReading.withClock t).withSeconds t.seconds).withZone t.zone) :
    timeOn? date t = (UtcOffset.ofParts? r.west r.offsetHours r.offsetMinutes).bind fun offset =>
      (shown? date r.hours r.minutes r.seconds r.nanoseconds).map (·.ofLocal offset) := by
  obtain ⟨hours, minutes, seconds, zone⟩ := t
  obtain ⟨⟨hah, ham⟩, has, haz⟩ := asciiDigits_spellTime.mp hascii
  obtain ⟨has, haf⟩ := asciiDigits_spellSeconds.mp has
  have hclock : natural? hours = some r.hours ∧ natural? minutes = some r.minutes := by
    rw [natural?_of_figure ht.hours hah, natural?_of_figure ht.minutes ham, hr]
    cases seconds <;> rcases zone with - | - | - <;> exact ⟨rfl, rfl⟩
  have hseconds : (seconds.map (natural? ·.seconds)).getD (some 0) = some r.seconds ∧
      (seconds.map (nanoseconds? ·.fraction)).getD (some 0) = some r.nanoseconds := by
    rw [hr]
    cases seconds with
    | none => rcases zone with - | - | - <;> exact ⟨rfl, rfl⟩
    | some s =>
      have hs := ht.seconds s rfl
      rw [Option.map_some, Option.map_some, Option.getD_some, Option.getD_some,
        natural?_of_figure hs.seconds (has s rfl),
        nanoseconds?_of_digits hs.fraction (haf s rfl) hs.fractionLength]
      rcases zone with - | - | - <;> exact ⟨rfl, rfl⟩
  have hoffset : zoneOffset? zone =
      UtcOffset.ofParts? r.west r.offsetHours r.offsetMinutes := by
    rw [hr]
    rcases zone with - | - | ⟨negative, offsetHours, colon, offsetMinutes⟩
    · cases seconds <;> rfl
    · cases seconds <;> rfl
    · obtain ⟨hh, hm⟩ := ht.zone _ rfl
      obtain ⟨hah, ham⟩ := asciiDigits_spellZone.mp haz
      simp only [zoneOffset?, natural?_of_figure hh hah, natural?_of_figure hm ham,
        Option.bind_eq_bind, Option.bind_some]
      rfl
  simp only [timeOn?, hclock, hseconds, hoffset, Option.bind_eq_bind, Option.bind_some]

theorem timestamp?_reading (hw : w.WellFormed) (hascii : AsciiDigits w.spell) :
    w.reading.timestamp? = w.timestamp? := by
  obtain ⟨⟨hay, ham, had⟩, htime⟩ := asciiDigits_spell.mp hascii
  have ht := wellFormed_getD_midnight hw
  have hreading := reading_eq w
  rw [timestamp?_eq_bind, natural?_of_figure hw.year hay, natural?_of_figure hw.month ham,
    natural?_of_figure hw.day had]
  simp only [Option.bind_some, timeOn?_eq ht htime _ hreading]
  have hparts : w.reading.year = numeralValue w.year ∧ w.reading.month = numeralValue w.month ∧
      w.reading.day = numeralValue w.day := by
    rw [hreading]
    rcases w.time.getD midnight with ⟨-, -, - | -, - | - | -⟩ <;> exact ⟨rfl, rfl, rfl⟩
  have hyear : numeralValue w.year < 10000 := by
    have hlt := positionalValue_lt (digits_of_figure hw.year hay)
    rwa [← numeralValue_eq_positionalValue, hw.year.length] at hlt
  simp only [TimeReading.timestamp?, Option.bind_eq_bind, hparts]
  cases hdate : Date.ofParts? (numeralValue w.year) (numeralValue w.month)
      (numeralValue w.day) with
  | none => rfl
  | some date =>
    have hdateYear := (Date.ofParts?_eq_some_iff.mp hdate).2.1
    have hin : TimeReading.inCalendar date = true :=
      TimeReading.inCalendar_of_year (by omega) (by omega)
    rw [Option.filter_some, if_pos hin, Option.bind_some, Option.bind_some]
    refine Option.bind_congr fun offset _ => ?_
    rw [Option.map_eq_bind]
    refine Option.bind_congr fun shown hshown => ?_
    have hsame := (shown?_eq_some_iff.mp hshown).2.1
    have hbeside := shown.year_ofLocal offset
    rw [hsame] at hbeside
    have hinUtc : TimeReading.inCalendar (shown.ofLocal offset).date = true :=
      TimeReading.inCalendar_of_year (by omega) (by omega)
    rw [Option.filter_some, if_pos hinUtc]
    rfl

/-! ## The mark of UTC -/

/-- The last character is a digit, of any script. -/
def EndsInDigit (cs : List Char) : Prop :=
  ∃ d, cs.getLast? = some d ∧ isDecimalDigit d = true

theorem endsInDigit_append {cs : List Char} (h : EndsInDigit rest) : EndsInDigit (cs ++ rest) := by
  obtain ⟨d, hd, hdigit⟩ := h
  refine ⟨d, ?_, hdigit⟩
  rw [List.getLast?_append, hd, Option.some_or]

theorem endsInDigit_cons {c : Char} (h : EndsInDigit rest) : EndsInDigit (c :: rest) := by
  show EndsInDigit ([c] ++ rest)
  exact endsInDigit_append h

theorem endsInDigit_of_digits {ds : List Char} (hne : ds ≠ []) (hds : Digits ds) :
    EndsInDigit ds :=
  ⟨ds.getLast hne, List.getLast?_eq_some_getLast hne, hds _ (List.getLast_mem hne)⟩

theorem endsInDigit_figure {n : Nat} {ds : List Char} (hds : Figure (n + 1) ds) :
    EndsInDigit ds := by
  refine endsInDigit_of_digits ?_ hds.digits
  rintro rfl
  cases hds.length

theorem endsInDigit_spellSeconds (hs : s.WellFormed) : EndsInDigit (spellSeconds s) := by
  rw [spellSeconds, List.cons_append]
  refine endsInDigit_cons ?_
  cases hfraction : s.fraction with
  | nil =>
    rw [List.isEmpty_nil, if_pos rfl, List.append_nil]
    exact endsInDigit_figure hs.seconds
  | cons d ds =>
    have hds : Digits (d :: ds) := hfraction ▸ hs.fraction
    exact endsInDigit_append (endsInDigit_cons (endsInDigit_of_digits (by simp) hds))

theorem endsInDigit_spellTime (ht : t.WellFormed) (hmark : t.zone ≠ some .utc) :
    EndsInDigit (spellTime t) := by
  obtain ⟨hours, minutes, seconds, zone⟩ := t
  cases zone with
  | none =>
    rw [spellTime, Option.map_none, Option.getD_none, List.append_nil]
    cases seconds with
    | none =>
      rw [Option.map_none, Option.getD_none, List.append_nil, List.cons_append]
      refine endsInDigit_cons (endsInDigit_append (endsInDigit_cons ?_))
      exact endsInDigit_figure ht.minutes
    | some s => exact endsInDigit_append (endsInDigit_spellSeconds (ht.seconds s rfl))
  | some z =>
    cases z with
    | utc => exact absurd rfl hmark
    | offset negative hours colon minutes =>
      exact endsInDigit_append (endsInDigit_append (endsInDigit_figure (ht.zone _ rfl).2))

theorem endsInDigit_spell (hw : w.WellFormed) (hmark : ∀ t ∈ w.time, t.zone ≠ some .utc) :
    EndsInDigit w.spell := by
  rw [spell]
  cases htime : w.time with
  | none =>
    rw [Option.map_none, Option.getD_none, List.append_nil]
    exact endsInDigit_append (endsInDigit_cons (endsInDigit_figure hw.day))
  | some t =>
    exact endsInDigit_append (endsInDigit_spellTime (hw.time t htime) (hmark t htime))

theorem withoutMark_mark (cs : List Char) : Timestamp.withoutMark (cs ++ ['Z']) =
    cs ++ ['+', '0', '0', ':', '0', '0'] := by
  simp [Timestamp.withoutMark]

/-- What is written in place of the mark of UTC. -/
def zeroOffset : WrittenZone :=
  .offset false ['0', '0'] true ['0', '0']

theorem withZone_eq_self {z : Option WrittenZone} (h : ∀ t ∈ w.time, t.zone = z) :
    w.withZone z = w := by
  obtain ⟨year, month, day, time⟩ := w
  cases time with
  | none => rfl
  | some t =>
    cases h t rfl
    rfl

/-- The zone is written last. -/
theorem exists_spell_withZone (htime : w.time = some t) :
    ∃ front, ∀ z, (w.withZone (some z)).spell = front ++ spellZone z := by
  obtain ⟨year, month, day, time⟩ := w
  cases htime
  refine ⟨year ++ '-' :: month ++ '-' :: day ++ 'T' :: t.hours ++ ':' :: t.minutes ++
    (t.seconds.map spellSeconds).getD [], fun z => ?_⟩
  simp [withZone, spell, spellTime]

/-- The text without the mark of UTC is written too, and means the same. -/
theorem exists_withoutMark (hw : w.WellFormed) :
    ∃ w' : Written, w'.WellFormed ∧ (∀ t ∈ w'.time, t.zone ≠ some .utc) ∧
      w'.spell = Timestamp.withoutMark w.spell ∧ w'.timestamp? = w.timestamp? := by
  by_cases hmark : ∀ t ∈ w.time, t.zone ≠ some .utc
  · refine ⟨w, hw, hmark, ?_, rfl⟩
    obtain ⟨d, hd, hdigit⟩ := endsInDigit_spell hw hmark
    rw [Timestamp.withoutMark, if_neg]
    intro hutc
    cases hd.symm.trans hutc
    exact absurd hdigit (by decide +kernel)
  · push Not at hmark
    obtain ⟨t, htime, hzone⟩ := hmark
    have hutc : ∀ t ∈ w.time, t.zone = some .utc := by
      intro t' ht'
      cases Option.mem_unique htime ht'
      exact hzone
    have halike : ∀ t ∈ w.time, WrittenZone.Alike t.zone (some zeroOffset) := by
      intro t ht
      rw [hutc t ht]
      exact .zero false true
    refine ⟨w.withZone (some zeroOffset), wellFormed_withZone hw halike, ?_, ?_,
      timestamp?_withZone halike⟩
    · intro t ht
      obtain ⟨_, -, rfl⟩ := Option.map_eq_some_iff.mp ht
      intro hzero
      cases hzero
    · obtain ⟨front, hfront⟩ := exists_spell_withZone htime
      have hspell : w.spell = front ++ ['Z'] := by
        have hself := hfront .utc
        rwa [withZone_eq_self hutc] at hself
      rw [hspell, withoutMark_mark]
      exact hfront zeroOffset

end Written

namespace Timestamp

/-- **The formats read what is written.** -/
theorem parse?_spell {w : Written} (hw : w.WellFormed) : parse? w.spell = w.timestamp? := by
  obtain ⟨w', hw', hmark, hspell, hsame⟩ := Written.exists_withoutMark hw
  rw [parse?, ← hspell, ← hsame]
  by_cases hascii : AsciiDigits w'.spell
  · have hread := (Written.readsOnly_formats hw' hascii hmark).findSome? TimeReading.timestamp?
    rw [List.findSome?_map] at hread
    exact hread.trans (Written.timestamp?_reading hw' hascii)
  · -- no format reads a digit of another script
    have hnone : w'.timestamp? = none := by
      rw [Option.eq_none_iff_forall_ne_some]
      intro u hu
      exact hascii ((Written.timestamp?_eq_some_iff_denotes hw').mp hu).1.digits
    rw [hnone, List.findSome?_eq_none_iff]
    intro items hitems
    cases hread : FormatItem.readAll? items {} w'.spell with
    | none => rfl
    | some r =>
      have hchoices : ∀ items ∈ TimestampFormat.all, ∀ item ∈ items,
          AsciiDigits item.choices := by
        decide +kernel
      exact absurd (FormatItem.asciiDigits_of_readAll? (hchoices items hitems) hread) hascii

/-- **A text in the form of a timestamp** is read alike by the formats and by its parts. -/
theorem parse?_eq_read? {cs : List Char} (h : hasForm cs = true) : parse? cs = read? cs := by
  obtain ⟨w, hw, rfl⟩ := hasForm_iff.mp h
  rw [parse?_spell hw, read?_spell hw]

end Timestamp

end RecordQuery
