import RecordQuery.Text.Ascii
import RecordQuery.Text.DecimalDigit
import RecordQuery.Time.Timestamp

/-! Timestamps as they are written. Their form is a date, then perhaps a time,
then perhaps an offset from UTC:

    YYYY-MM-DD[Thh:mm[:ss[.f]][Z|+hh:mm|+hhmm]]

The form admits the decimal digits of every script and does not ask whether
there is such a day. `Written.timestamp?` does ask, and reads ASCII digits only. -/
namespace RecordQuery

open Text

/-- A written offset from UTC. -/
inductive WrittenZone where
  | utc
  | offset (negative : Bool) (hours : List Char) (colon : Bool) (minutes : List Char)
deriving DecidableEq, Repr

/-- Written seconds. The fraction is empty when no point is written. -/
structure WrittenSeconds where
  seconds : List Char
  fraction : List Char
deriving DecidableEq, Repr

/-- A written time of day. -/
structure WrittenTime where
  hours : List Char
  minutes : List Char
  seconds : Option WrittenSeconds
  zone : Option WrittenZone
deriving DecidableEq, Repr

/-- A written timestamp, digit by digit. -/
structure Written where
  year : List Char
  month : List Char
  day : List Char
  time : Option WrittenTime
deriving DecidableEq, Repr

namespace Written

/-! ## The form -/

/-- `n` decimal digits, and what follows them. -/
def digits? : Nat → List Char → Option (List Char × List Char)
  | 0, cs => some ([], cs)
  | _ + 1, [] => none
  | n + 1, c :: cs =>
    if isDecimalDigit c then (digits? n cs).map fun (ds, rest) => (c :: ds, rest) else none

/-- As many decimal digits as there are, up to `n`, and what follows them. -/
def digitsUpTo : Nat → List Char → List Char × List Char
  | n + 1, c :: cs =>
    if isDecimalDigit c then (c :: (digitsUpTo n cs).1, (digitsUpTo n cs).2) else ([], c :: cs)
  | _, cs => ([], cs)

/-- `mark` and two digits. -/
def marked? (mark : Char) (cs : List Char) : Option (List Char × List Char) :=
  match cs with
  | c :: rest => if c = mark then digits? 2 rest else none
  | [] => none

/-- A point and the digits after it, nine at most, if there are any. -/
def readFraction (cs : List Char) : List Char × List Char :=
  match cs with
  | '.' :: rest => if (digitsUpTo 9 rest).1.isEmpty then ([], cs) else digitsUpTo 9 rest
  | _ => ([], cs)

/-- Seconds with their fraction, if they are written. -/
def readSeconds (cs : List Char) : Option WrittenSeconds × List Char :=
  match marked? ':' cs with
  | some (seconds, rest) => (some ⟨seconds, (readFraction rest).1⟩, (readFraction rest).2)
  | none => (none, cs)

/-- Hours and minutes after the sign of an offset. The colon may be left out. -/
def offset? (negative : Bool) (cs : List Char) : Option (WrittenZone × List Char) :=
  match digits? 2 cs with
  | none => none
  | some (hours, rest) =>
    match rest with
    | ':' :: rest =>
      (digits? 2 rest).map fun (minutes, rest) => (.offset negative hours true minutes, rest)
    | _ =>
      (digits? 2 rest).map fun (minutes, rest) => (.offset negative hours false minutes, rest)

/-- The mark of UTC, or an offset from it. -/
def zone? (cs : List Char) : Option (WrittenZone × List Char) :=
  match cs with
  | 'Z' :: rest => some (.utc, rest)
  | '+' :: rest => offset? false rest
  | '-' :: rest => offset? true rest
  | _ => none

/-- The zone, if one is written. -/
def readZone (cs : List Char) : Option WrittenZone × List Char :=
  match zone? cs with
  | some (zone, rest) => (some zone, rest)
  | none => (none, cs)

/-- `T` and a time of day, if they are written. -/
def readTime (cs : List Char) : Option WrittenTime × List Char :=
  match marked? 'T' cs with
  | none => (none, cs)
  | some (hours, rest) =>
    match marked? ':' rest with
    | none => (none, cs)
    | some (minutes, rest) =>
      let (seconds, rest) := readSeconds rest
      let (zone, rest) := readZone rest
      (some ⟨hours, minutes, seconds, zone⟩, rest)

/-- The longest timestamp that `cs` begins with, and what follows it. Each part
is taken when it is there; no part can be read in two ways, so this is longest. -/
def read? (cs : List Char) : Option (Written × List Char) :=
  match digits? 4 cs with
  | none => none
  | some (year, rest) =>
    match marked? '-' rest with
    | none => none
    | some (month, rest) =>
      match marked? '-' rest with
      | none => none
      | some (day, rest) =>
        let (time, rest) := readTime rest
        some (⟨year, month, day, time⟩, rest)

/-! ## Spelling -/

/-- An offset as it was written. -/
def spellZone : WrittenZone → List Char
  | .utc => ['Z']
  | .offset negative hours colon minutes =>
    (if negative then '-' else '+') :: hours ++ (if colon then [':'] else []) ++ minutes

/-- Seconds as they were written, from their colon on. -/
def spellSeconds (s : WrittenSeconds) : List Char :=
  ':' :: s.seconds ++ (if s.fraction.isEmpty then [] else '.' :: s.fraction)

/-- A time as it was written, from its `T` on. -/
def spellTime (t : WrittenTime) : List Char :=
  'T' :: t.hours ++ ':' :: t.minutes ++ (t.seconds.map spellSeconds).getD [] ++
    (t.zone.map spellZone).getD []

/-- The characters of the timestamp. -/
def spell (w : Written) : List Char :=
  w.year ++ '-' :: w.month ++ '-' :: w.day ++ (w.time.map spellTime).getD []

/-! ## Nothing is lost

Each part that is read and what follows it make up the text. -/

theorem digits?_append {n : Nat} {cs ds rest : List Char} (h : digits? n cs = some (ds, rest)) :
    ds ++ rest = cs := by
  induction n generalizing cs ds rest with
  | zero =>
    simp only [digits?, Option.some.injEq, Prod.mk.injEq] at h
    simp [← h.1, h.2]
  | succ n ih =>
    cases cs with
    | nil => simp [digits?] at h
    | cons c cs =>
      simp only [digits?] at h
      split at h
      · obtain ⟨⟨ds', rest'⟩, hd, he⟩ := Option.map_eq_some_iff.mp h
        simp only [Prod.mk.injEq] at he
        rw [← he.1, ← he.2, List.cons_append, ih hd]
      · cases h

theorem digitsUpTo_append (n : Nat) (cs : List Char) :
    (digitsUpTo n cs).1 ++ (digitsUpTo n cs).2 = cs := by
  induction n generalizing cs with
  | zero => simp [digitsUpTo]
  | succ n ih =>
    cases cs with
    | nil => simp [digitsUpTo]
    | cons c cs =>
      simp only [digitsUpTo]
      split
      · simp [ih]
      · simp

theorem marked?_append {mark : Char} {cs ds rest : List Char}
    (h : marked? mark cs = some (ds, rest)) : mark :: ds ++ rest = cs := by
  cases cs with
  | nil => simp [marked?] at h
  | cons c cs =>
    simp only [marked?] at h
    split at h
    · rename_i hc
      rw [hc, List.cons_append, digits?_append h]
    · cases h

theorem readFraction_append (cs : List Char) :
    (if (readFraction cs).1.isEmpty then [] else '.' :: (readFraction cs).1) ++
      (readFraction cs).2 = cs := by
  unfold readFraction
  split
  · rename_i rest
    split
    · simp
    · rename_i hf
      simp [digitsUpTo_append]
  · simp

theorem readSeconds_append (cs : List Char) :
    ((readSeconds cs).1.map spellSeconds).getD [] ++ (readSeconds cs).2 = cs := by
  unfold readSeconds
  split
  · rename_i seconds rest h
    simp only [Option.map_some, Option.getD_some, spellSeconds, List.append_assoc]
    rw [readFraction_append, marked?_append h]
  · simp

theorem offset?_append {negative : Bool} {cs rest : List Char} {zone : WrittenZone}
    (h : offset? negative cs = some (zone, rest)) :
    spellZone zone ++ rest = (if negative then '-' else '+') :: cs := by
  unfold offset? at h
  split at h
  · cases h
  · rename_i hours rest' hd
    have hh := digits?_append hd
    split at h
    all_goals
      obtain ⟨⟨minutes, rest''⟩, hm, he⟩ := Option.map_eq_some_iff.mp h
      simp only [Prod.mk.injEq] at he
      have hm' := digits?_append hm
      rw [← he.1, ← he.2]
      simp [spellZone, hm', hh]

theorem zone?_append {cs rest : List Char} {zone : WrittenZone}
    (h : zone? cs = some (zone, rest)) : spellZone zone ++ rest = cs := by
  unfold zone? at h
  split at h
  · simp only [Option.some.injEq, Prod.mk.injEq] at h
    simp [← h.1, ← h.2, spellZone]
  · simpa using offset?_append h
  · simpa using offset?_append h
  · cases h

theorem readZone_append (cs : List Char) :
    ((readZone cs).1.map spellZone).getD [] ++ (readZone cs).2 = cs := by
  unfold readZone
  split
  · rename_i zone rest h
    simpa using zone?_append h
  · simp

theorem readTime_append (cs : List Char) :
    ((readTime cs).1.map spellTime).getD [] ++ (readTime cs).2 = cs := by
  unfold readTime
  split
  · simp
  · rename_i hours rest hh
    split
    · simp
    · rename_i minutes rest' hm
      simp only [Option.map_some, Option.getD_some, spellTime, List.append_assoc]
      rw [readZone_append, readSeconds_append, marked?_append hm, marked?_append hh]

/-- A written timestamp that is read is spelled at the front of the text. -/
theorem read?_append {cs rest : List Char} {w : Written} (h : read? cs = some (w, rest)) :
    w.spell ++ rest = cs := by
  unfold read? at h
  split at h
  · cases h
  · rename_i year rest₁ hy
    split at h
    · cases h
    · rename_i month rest₂ hm
      split at h
      · cases h
      · rename_i day rest₃ hd
        simp only [Option.some.injEq, Prod.mk.injEq] at h
        obtain ⟨rfl, rfl⟩ := h
        simp only [spell, List.append_assoc]
        rw [readTime_append, marked?_append hd, marked?_append hm, digits?_append hy]

/-! ## The time that is meant -/

/-- The offset that is written, none meaning UTC. -/
def zoneOffset? : Option WrittenZone → Option UtcOffset
  | none => some .zero
  | some .utc => some .zero
  | some (.offset negative hours _ minutes) => do
    UtcOffset.ofParts? negative (← natural? hours) (← natural? minutes)

/-- Nanoseconds in a fraction of a second of at most nine digits. -/
def nanoseconds? (fraction : List Char) : Option Nat :=
  if fraction.isEmpty then some 0
  else natural? (fraction ++ List.replicate (9 - fraction.length) '0')

/-- The time that a clock shows at `date`, with these parts. -/
def shown? (date : Date) (hours minutes seconds nanoseconds : Nat) : Option Timestamp :=
  if h : (hours < 24 ∧ minutes < 60) ∧ seconds ≤ 60 ∧ nanoseconds < 1000000000 then
    some ⟨date, hours * 60 + minutes, seconds, nanoseconds, by omega, h.2.1, h.2.2⟩
  else none

/-- The time of day at `date`, in UTC. -/
def timeOn? (date : Date) (t : WrittenTime) : Option Timestamp := do
  let hours ← natural? t.hours
  let minutes ← natural? t.minutes
  let seconds ← (t.seconds.map (natural? ·.seconds)).getD (some 0)
  let nanoseconds ← (t.seconds.map (nanoseconds? ·.fraction)).getD (some 0)
  let offset ← zoneOffset? t.zone
  (shown? date hours minutes seconds nanoseconds).map (·.ofLocal offset)

/-- The point in time that is written; a date alone means its midnight. None if
the calendar or the clock has no such time. -/
def timestamp? (w : Written) : Option Timestamp := do
  let year ← natural? w.year
  let month ← natural? w.month
  let day ← natural? w.day
  let date ← Date.ofParts? year month day
  match w.time with
  | none => shown? date 0 0 0 0
  | some t => timeOn? date t

end Written

namespace Timestamp

/-- The longest timestamp that `cs` begins with, and what follows it. -/
def leading? (cs : List Char) : Option (List Char × List Char) :=
  (Written.read? cs).map fun (w, rest) => (w.spell, rest)

theorem leading?_append {cs spelling rest : List Char} (h : leading? cs = some (spelling, rest)) :
    spelling ++ rest = cs := by
  obtain ⟨⟨w, rest'⟩, hr, he⟩ := Option.map_eq_some_iff.mp h
  simp only [Prod.mk.injEq] at he
  rw [← he.1, ← he.2, Written.read?_append hr]

/-- The length in bytes of the longest timestamp at the front of `cs`. -/
def leadingLength? (cs : List Char) : Option Nat :=
  (leading? cs).map fun (spelling, _) => byteLength spelling

/-- The whole of `cs` has the form of a timestamp. -/
def hasForm (cs : List Char) : Bool :=
  match leading? cs with
  | some (_, rest) => rest.isEmpty
  | none => false

/-- The point in time that the whole of `cs` writes. -/
def read? (cs : List Char) : Option Timestamp :=
  match Written.read? cs with
  | some (w, []) => w.timestamp?
  | _ => none

end Timestamp

end RecordQuery
