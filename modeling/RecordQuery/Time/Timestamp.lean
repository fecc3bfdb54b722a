import RecordQuery.Text.Numeral
import RecordQuery.Time.Date

/-! Points in time, in UTC. A minute may have a sixty-first second. Offsets from
UTC are whole minutes and shorter than a day, so that removing one changes the
minute of the day and moves the date by a day at most. -/
namespace RecordQuery

/-- A date and a time of day in UTC. -/
structure Timestamp where
  date : Date
  /-- Minutes since midnight. -/
  minute : Nat
  second : Nat
  nanosecond : Nat
  minute_lt : minute < 1440
  second_le : second ≤ 60
  nanosecond_lt : nanosecond < 1000000000
deriving DecidableEq, Repr

/-- How many minutes local time is ahead of UTC. -/
structure UtcOffset where
  minutes : Int
  above : -1440 < minutes
  below : minutes < 1440
deriving DecidableEq, Repr

namespace UtcOffset

/-- No offset: local time is UTC. -/
def zero : UtcOffset := ⟨0, by decide, by decide⟩

/-- The offset with these parts; its hours stay below a day. -/
def ofParts? (negative : Bool) (hours minutes : Nat) : Option UtcOffset :=
  if h : hours < 24 ∧ minutes < 60 then
    let total : Int := hours * 60 + minutes
    if negative then some ⟨-total, by omega, by omega⟩ else some ⟨total, by omega, by omega⟩
  else none

end UtcOffset

namespace Timestamp

open Text

/-- The time in UTC when clocks that are ahead by `offset` show `shown`. -/
def ofLocal (shown : Timestamp) (offset : UtcOffset) : Timestamp :=
  let minute : Int := shown.minute - offset.minutes
  have := shown.minute_lt
  have := offset.above
  have := offset.below
  if hb : minute < 0 then
    { shown with
      date := shown.date.previous
      minute := (minute + 1440).toNat
      minute_lt := by omega }
  else if ha : minute < 1440 then
    { shown with minute := minute.toNat, minute_lt := by omega }
  else
    { shown with
      date := shown.date.next
      minute := (minute - 1440).toNat
      minute_lt := by omega }

/-- A year in four digits. Years that do not fit have a sign in front. -/
def yearText (year : Int) : List Char :=
  if year < 0 then '-' :: paddedNumeral 4 year.natAbs
  else if year ≤ 9999 then paddedNumeral 4 year.natAbs
  else '+' :: paddedNumeral 4 year.natAbs

/-- A point and the fewest of three, six or nine digits that are exact;
nothing when the second is whole. -/
def fractionText (nanosecond : Nat) : List Char :=
  if nanosecond = 0 then []
  else if nanosecond % 1000000 = 0 then '.' :: paddedNumeral 3 (nanosecond / 1000000)
  else if nanosecond % 1000 = 0 then '.' :: paddedNumeral 6 (nanosecond / 1000)
  else '.' :: paddedNumeral 9 nanosecond

/-- Date and time in ISO 8601, with `zone` as the mark of UTC. -/
def written (t : Timestamp) (zone : List Char) : List Char :=
  yearText t.date.year ++ '-' :: paddedNumeral 2 t.date.month ++
    '-' :: paddedNumeral 2 t.date.day ++ 'T' :: paddedNumeral 2 (t.minute / 60) ++
    ':' :: paddedNumeral 2 (t.minute % 60) ++ ':' :: paddedNumeral 2 t.second ++
    fractionText t.nanosecond ++ zone

/-- The time with `Z` for UTC. -/
def text (t : Timestamp) : String :=
  String.ofList (t.written ['Z'])

/-- The time with a numeric offset, which databases compare as text. -/
def offsetText (t : Timestamp) : String :=
  String.ofList (t.written ['+', '0', '0', ':', '0', '0'])

end Timestamp

end RecordQuery
