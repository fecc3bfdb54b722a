import Mathlib.Algebra.Order.BigOperators.Group.List
import Mathlib.Tactic.IntervalCases
import RecordQuery.Time.Timestamp

/-!
# The calendar

The days of the Gregorian calendar in one line, counted from the first day of the year 0. The
count grows by one from each day to the next, over the ends of months, years and leap years, and no
two days have the same number. So a point in time is told by the number of its minute, and a time
that is moved by an offset is the one whose minute is that many minutes away.
-/

namespace RecordQuery

namespace Calendar

/-! ## Years and months -/

/-- Every fourth year is a leap year, but of the centuries only every fourth. -/
def LeapYear (year : Int) : Prop :=
  4 ∣ year ∧ (100 ∣ year → 400 ∣ year)

instance (year : Int) : Decidable (LeapYear year) :=
  inferInstanceAs (Decidable (_ ∧ _))

/-- The lengths of the months, from January on. -/
def monthLengths (year : Int) : List Nat :=
  [31, if LeapYear year then 29 else 28, 31, 30, 31, 30, 31, 31, 30, 31, 30, 31]

/-- There is such a day. Months and days are counted from one. -/
def HasDay (year : Int) (month day : Nat) : Prop :=
  1 ≤ month ∧ 1 ≤ day ∧ ∃ length ∈ (monthLengths year)[month - 1]?, day ≤ length

/-- The days from the year 0 to the start of a year: 365 for each year, and a leap day for each
leap year. Before the year 0 they are counted backwards. -/
def daysBeforeYear (year : Int) : Int :=
  365 * year + (year + 3) / 4 - (year + 99) / 100 + (year + 399) / 400

/-- The days from the start of a year to that of a month. -/
def daysBeforeMonth (year : Int) (month : Nat) : Nat :=
  ((monthLengths year).take (month - 1)).sum

/-- The number of a day, the first of the year 0 being 0. -/
def dayNumber (year : Int) (month day : Nat) : Int :=
  daysBeforeYear year + daysBeforeMonth year month + day - 1

variable {year : Int} {month day : Nat}

theorem isLeapYear_iff : isLeapYear year = true ↔ LeapYear year := by
  simp only [isLeapYear, LeapYear, Bool.and_eq_true, Bool.or_eq_true, beq_iff_eq, bne_iff_ne]
  omega

theorem getElem?_monthLengths (hpos : 1 ≤ month) (hle : month ≤ 12) :
    (monthLengths year)[month - 1]? = some (daysInMonth year month) := by
  interval_cases month
  all_goals simp [monthLengths, daysInMonth, isLeapYear_iff]

theorem hasDay_iff : HasDay year month day ↔
    (1 ≤ month ∧ month ≤ 12) ∧ 1 ≤ day ∧ day ≤ daysInMonth year month := by
  constructor
  · rintro ⟨hpos, hday, length, hlength, hle⟩
    have hmonth : month - 1 < 12 := (List.getElem?_eq_some_iff.mp hlength).1
    rw [Option.mem_def, getElem?_monthLengths hpos (by omega)] at hlength
    cases hlength
    exact ⟨⟨hpos, by omega⟩, hday, hle⟩
  · rintro ⟨⟨hpos, hmonth⟩, hday, hle⟩
    exact ⟨hpos, hday, _, getElem?_monthLengths hpos hmonth, hle⟩

/-! ## Counting days -/

theorem sum_monthLengths (year : Int) :
    (monthLengths year).sum = if LeapYear year then 366 else 365 := by
  by_cases h : LeapYear year
  · simp [monthLengths, h]
  · simp [monthLengths, h]

/-- **A year takes the days of its months.** -/
theorem daysBeforeYear_succ (year : Int) :
    daysBeforeYear (year + 1) = daysBeforeYear year + (monthLengths year).sum := by
  rw [sum_monthLengths]
  by_cases h : LeapYear year
  · rw [if_pos h]
    simp only [LeapYear] at h
    simp only [daysBeforeYear, Nat.cast_ofNat]
    omega
  · rw [if_neg h]
    simp only [LeapYear] at h
    simp only [daysBeforeYear, Nat.cast_ofNat]
    omega

theorem daysBeforeYear_mono {a b : Int} (h : a ≤ b) : daysBeforeYear a ≤ daysBeforeYear b := by
  simp only [daysBeforeYear]
  omega

/-- **A month takes its days.** -/
theorem daysBeforeMonth_succ (year : Int) (hpos : 1 ≤ month) (hle : month ≤ 12) :
    daysBeforeMonth year (month + 1) = daysBeforeMonth year month + daysInMonth year month := by
  have hlength : month - 1 < (monthLengths year).length := by
    show month - 1 < 12
    omega
  have hget := List.getElem?_eq_getElem hlength
  rw [getElem?_monthLengths hpos hle, Option.some.injEq] at hget
  rw [daysBeforeMonth, daysBeforeMonth, hget, ← List.sum_take_succ _ _ hlength,
    Nat.add_sub_cancel, Nat.sub_add_cancel hpos]

theorem daysBeforeMonth_mono {m n : Nat} (h : m ≤ n) :
    daysBeforeMonth year m ≤ daysBeforeMonth year n :=
  List.monotone_sum_take (monthLengths year) (Nat.sub_le_sub_right h 1)

theorem daysBeforeMonth_thirteen (year : Int) :
    daysBeforeMonth year 13 = (monthLengths year).sum := rfl

end Calendar

open Calendar

namespace Date

/-- The number of the day, the first of the year 0 being 0. -/
def number (d : Date) : Int :=
  dayNumber d.year d.month d.day

theorem ofParts?_eq_some_iff {year : Int} {month day : Nat} {d : Date} :
    ofParts? year month day = some d ↔
      HasDay year month day ∧ d.year = year ∧ d.month = month ∧ d.day = day := by
  rw [hasDay_iff, ofParts?]
  constructor
  · intro h
    split at h
    · rename_i hday
      cases h
      exact ⟨hday, rfl, rfl, rfl⟩
    · cases h
  · rintro ⟨hday, rfl, rfl, rfl⟩
    rw [dif_pos hday]

/-- **The next day has the next number**, at the ends of months and years too. -/
theorem number_next (d : Date) : d.next.number = d.number + 1 := by
  have hsucc := daysBeforeMonth_succ d.year d.month_pos d.month_le
  have hday := d.day_le
  unfold next
  split
  · simp only [number, dayNumber]
    omega
  · rename_i hlast
    split
    · simp only [number, dayNumber, hsucc]
      omega
    · have hmonth : d.month = 12 := Nat.le_antisymm d.month_le (by omega)
      have hyear := daysBeforeYear_succ d.year
      have hjanuary : daysBeforeMonth (d.year + 1) 1 = 0 := rfl
      rw [← daysBeforeMonth_thirteen] at hyear
      rw [hmonth] at hsucc hday hlast
      simp only [number, dayNumber, hyear, hjanuary, hsucc, hmonth]
      omega

theorem number_previous (d : Date) : d.previous.number = d.number - 1 := by
  have hday := d.day_pos
  have hpos := d.month_pos
  unfold previous
  split
  · simp only [number, dayNumber]
    omega
  · split
    · have hle := d.month_le
      have hsucc : daysBeforeMonth d.year (d.month - 1 + 1) = _ :=
        daysBeforeMonth_succ d.year (by omega) (by omega)
      rw [Nat.sub_add_cancel hpos] at hsucc
      simp only [number, dayNumber, hsucc]
      omega
    · have hmonth : d.month = 1 := by omega
      have hyear := daysBeforeYear_succ (d.year - 1)
      have hsucc : daysBeforeMonth (d.year - 1) 13 = _ :=
        daysBeforeMonth_succ (d.year - 1) (by omega) (Nat.le_refl 12)
      have hjanuary : daysBeforeMonth d.year 1 = 0 := rfl
      have hdecember : daysInMonth (d.year - 1) 12 = 31 := rfl
      rw [← daysBeforeMonth_thirteen, Int.sub_add_cancel] at hyear
      simp only [number, dayNumber, hmonth, hjanuary, hyear, hsucc, hdecember]
      omega

/-- The days of a year lie between its start and the start of the next. -/
theorem number_bounds (d : Date) :
    daysBeforeYear d.year ≤ d.number ∧ d.number < daysBeforeYear (d.year + 1) := by
  have hsucc := daysBeforeMonth_succ d.year d.month_pos d.month_le
  have hmono : daysBeforeMonth d.year (d.month + 1) ≤ daysBeforeMonth d.year 13 :=
    daysBeforeMonth_mono (Nat.succ_le_succ d.month_le)
  have hpos := d.day_pos
  have hle := d.day_le
  rw [daysBeforeYear_succ, ← daysBeforeMonth_thirteen]
  simp only [number, dayNumber]
  omega

/-- A month ends before a later one of the same year starts. -/
theorem month_le_of_number_eq {d e : Date} (hyear : d.year = e.year) (h : d.number = e.number) :
    d.month ≤ e.month := by
  by_contra hlt
  have hsucc := daysBeforeMonth_succ e.year e.month_pos e.month_le
  have hmono : daysBeforeMonth e.year (e.month + 1) ≤ daysBeforeMonth e.year d.month :=
    daysBeforeMonth_mono (by omega)
  have hpos := d.day_pos
  have hle := e.day_le
  simp only [number, dayNumber, hyear] at h
  omega

/-- **No two days have the same number.** -/
theorem number_injective : Function.Injective number := by
  intro d e h
  have hyear : d.year = e.year := by
    have hd := d.number_bounds
    have he := e.number_bounds
    by_contra hne
    -- the earlier year ends before the later one starts
    rcases Int.lt_or_gt_of_ne hne with hlt | hlt
    · have hmono : daysBeforeYear (d.year + 1) ≤ daysBeforeYear e.year :=
        daysBeforeYear_mono (by omega)
      omega
    · have hmono : daysBeforeYear (e.year + 1) ≤ daysBeforeYear d.year :=
        daysBeforeYear_mono (by omega)
      omega
  have hmonth : d.month = e.month :=
    Nat.le_antisymm (month_le_of_number_eq hyear h) (month_le_of_number_eq hyear.symm h.symm)
  have hday : d.day = e.day := by
    simp only [number, dayNumber, hyear, hmonth] at h
    omega
  obtain ⟨year, month, day, _, _, _, _⟩ := d
  cases hyear
  cases hmonth
  cases hday
  rfl

end Date

/-! ## Minutes -/

namespace Timestamp

/-- The number of the minute, that of the first midnight of the year 0 being 0. -/
def minuteNumber (t : Timestamp) : Int :=
  1440 * t.date.number + t.minute

/-- **A point in time is told by its minute**, its second and its nanosecond. -/
theorem ext_minuteNumber {t u : Timestamp} (hminute : t.minuteNumber = u.minuteNumber)
    (hsecond : t.second = u.second) (hnanosecond : t.nanosecond = u.nanosecond) : t = u := by
  have ht := t.minute_lt
  have hu := u.minute_lt
  simp only [minuteNumber] at hminute
  have hdate : t.date = u.date := Date.number_injective (by omega)
  have hminute : t.minute = u.minute := by
    rw [hdate] at hminute
    omega
  obtain ⟨date, minute, second, nanosecond, _, _, _⟩ := t
  cases hdate
  cases hminute
  cases hsecond
  cases hnanosecond
  rfl

/-- **The offset is taken off**, over the end of a day too. -/
theorem minuteNumber_ofLocal (shown : Timestamp) (offset : UtcOffset) :
    (shown.ofLocal offset).minuteNumber = shown.minuteNumber - offset.minutes := by
  have hlt := shown.minute_lt
  have habove := offset.above
  have hbelow := offset.below
  unfold ofLocal
  simp only
  split
  · simp only [minuteNumber, Date.number_previous]
    omega
  · split
    · simp only [minuteNumber]
      omega
    · simp only [minuteNumber, Date.number_next]
      omega

/-- Nothing below the minute is touched. -/
theorem second_ofLocal (shown : Timestamp) (offset : UtcOffset) :
    (shown.ofLocal offset).second = shown.second ∧
      (shown.ofLocal offset).nanosecond = shown.nanosecond := by
  unfold ofLocal
  simp only
  split
  · exact ⟨rfl, rfl⟩
  · split <;> exact ⟨rfl, rfl⟩

end Timestamp

end RecordQuery
