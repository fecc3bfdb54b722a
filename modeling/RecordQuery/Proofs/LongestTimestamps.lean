import Mathlib.Order.Bounds.Basic
import RecordQuery.Proofs.Patterns
import RecordQuery.Proofs.TimestampForm

/-!
# The longest timestamps

The form of timestamps as a pattern, stated apart from how timestamps are read and spelled.
Reading takes what a search with this pattern finds first. Its language is the form, and
reading is longest for the form; so the length that is found is the greatest, and to go
back in the search never leads to a longer match.
-/

namespace RecordQuery

open Text
open Written (Digits Figure)

namespace Pattern

/-! ## The pattern -/

/-- A decimal digit of any script. -/
def digit : Pattern :=
  one isDecimalDigit

/-- `mark` and two digits. -/
def marked (mark : Char) : Pattern :=
  (char mark).seq (times 2 digit)

/-- A point and one to nine digits. -/
def fraction : Pattern :=
  (char '.').seq (digit.seq (atMost 8 digit))

/-- `:ss`, and a fraction if there is one. -/
def seconds : Pattern :=
  (marked ':').seq (optional fraction)

/-- `mm`, behind a colon if there is one. -/
def minutes : Pattern :=
  (optional (char ':')).seq (times 2 digit)

/-- `hh` and `mm`. -/
def offset : Pattern :=
  (times 2 digit).seq minutes

/-- `Z`, or a sign and an offset. -/
def zone : Pattern :=
  choice (char 'Z') ((one fun c => c == '+' || c == '-').seq offset)

/-- `Thh:mm`, and seconds and a zone if there are any. -/
def time : Pattern :=
  (marked 'T').seq ((marked ':').seq ((optional seconds).seq (optional zone)))

/-- `YYYY-MM-DD`, and a time if there is one. -/
def timestamp : Pattern :=
  (times 4 digit).seq ((marked '-').seq ((marked '-').seq (optional time)))

variable {p : Pattern} {n : Nat} {mark : Char} {s cs : List Char}

/-! ## Reading takes what is found first

Digits of a fixed number match in one way at most, and a part that may be left out is read
if and only if it is found. -/

theorem remainders_times : (times n digit).remainders cs =
    ((Written.digits? n cs).map Prod.snd).toList := by
  induction n generalizing cs with
  | zero => rfl
  | succ n ih =>
    cases cs with
    | nil => rfl
    | cons c cs =>
      rw [times, digit, remainders_one_seq_cons, ← digit, ih, Written.digits?]
      by_cases hc : isDecimalDigit c = true
      · rw [if_pos hc, if_pos hc, Option.map_map]
        rfl
      · rw [if_neg hc, if_neg hc]
        rfl

theorem remainders_marked : (marked mark).remainders cs =
    ((Written.marked? mark cs).map Prod.snd).toList := by
  cases cs with
  | nil => rfl
  | cons c cs =>
    rw [marked, char, remainders_one_seq_cons, remainders_times, Written.marked?]
    by_cases hc : c = mark
    · simp [hc]
    · simp [hc]

theorem first_times_seq :
    ((times n digit).seq p).first cs = (Written.digits? n cs).bind fun x => p.first x.2 := by
  rw [first_seq_of_remainders remainders_times, Option.bind_map]
  rfl

theorem first_marked_seq :
    ((marked mark).seq p).first cs = (Written.marked? mark cs).bind fun x => p.first x.2 := by
  rw [first_seq_of_remainders remainders_marked, Option.bind_map]
  rfl

theorem first_atMost : (atMost n digit).first cs = some (Written.digitsUpTo n cs).2 := by
  induction n generalizing cs with
  | zero => cases cs <;> rfl
  | succ n ih =>
    rw [atMost, first_optional]
    cases cs with
    | nil => rfl
    | cons c cs =>
      rw [digit, first_one_seq_cons, ← digit, ih, Written.digitsUpTo]
      by_cases hc : isDecimalDigit c = true
      · rw [if_pos hc, if_pos hc]
        rfl
      · rw [if_neg hc, if_neg hc]
        rfl

theorem getD_first_fraction : (fraction.first cs).getD cs = (Written.readFraction cs).2 := by
  cases cs with
  | nil => rfl
  | cons c cs =>
    rw [fraction, char, first_one_seq_cons]
    by_cases hpoint : c = '.'
    · subst hpoint
      cases cs with
      | nil => rfl
      | cons d cs =>
        rw [digit, first_one_seq_cons, ← digit, first_atMost]
        by_cases hd : isDecimalDigit d = true
        · simp [Written.readFraction_point hd, Written.digitsUpTo, hd]
        · simp [Written.readFraction, Written.digitsUpTo, hd]
    · simp [hpoint, Written.readFraction]

theorem getD_first_seconds : (seconds.first cs).getD cs = (Written.readSeconds cs).2 := by
  rw [seconds, first_marked_seq, Written.readSeconds]
  cases Written.marked? ':' cs with
  | none => rfl
  | some x =>
    rw [Option.bind_some, first_optional, getD_first_fraction]
    rfl

/-- A colon is taken where there is one. To go back for minutes without it is in vain. -/
theorem first_minutes_colon :
    minutes.first (':' :: cs) = (Written.digits? 2 cs).map Prod.snd := by
  have hcolon : Written.digits? 2 (':' :: cs) = none := if_neg (by decide +kernel)
  simp [minutes, optional, first, char, remainders, remainders_times, hcolon]

theorem first_minutes_of_ne (h : ∀ rest, cs ≠ ':' :: rest) :
    minutes.first cs = (Written.digits? 2 cs).map Prod.snd := by
  cases cs with
  | nil => rfl
  | cons c cs =>
    have hc : c ≠ ':' := by
      rintro rfl
      exact h cs rfl
    simp [minutes, optional, first, char, remainders, remainders_times, hc]

theorem first_offset (negative : Bool) :
    offset.first cs = (Written.offset? negative cs).map Prod.snd := by
  rw [offset, first_times_seq, Written.offset?]
  cases Written.digits? 2 cs with
  | none => rfl
  | some x =>
    obtain ⟨hours, rest⟩ := x
    dsimp only [Option.bind_some]
    split
    · rw [first_minutes_colon, Option.map_map]
      rfl
    · rename_i hcolon
      rw [first_minutes_of_ne hcolon, Option.map_map]
      rfl

theorem first_zone : zone.first cs = (Written.zone? cs).map Prod.snd := by
  unfold Written.zone?
  rw [zone, first_choice]
  split
  · rfl
  · rw [first_one_seq_cons]
    exact first_offset false
  · rw [first_one_seq_cons]
    exact first_offset true
  · -- without one of the three marks neither side of the choice begins
    rename_i hutc hplus hminus
    cases cs with
    | nil => rfl
    | cons c cs =>
      have hz : c ≠ 'Z' := fun h => hutc cs (h ▸ rfl)
      have hp : c ≠ '+' := fun h => hplus cs (h ▸ rfl)
      have hm : c ≠ '-' := fun h => hminus cs (h ▸ rfl)
      simp [first, remainders, char, hz, hp, hm]

theorem getD_first_zone : (zone.first cs).getD cs = (Written.readZone cs).2 := by
  rw [first_zone, Written.readZone]
  cases Written.zone? cs with
  | none => rfl
  | some x => rfl

theorem getD_first_time : (time.first cs).getD cs = (Written.readTime cs).2 := by
  rw [time, first_marked_seq, Written.readTime]
  cases Written.marked? 'T' cs with
  | none => rfl
  | some hours =>
    dsimp only [Option.bind_some]
    rw [first_marked_seq]
    cases Written.marked? ':' hours.2 with
    | none => rfl
    | some minutes =>
      dsimp only [Option.bind_some]
      rw [first_seq_optional, first_optional, getD_first_seconds, Option.map_some, getD_first_zone,
        Option.getD_some]

/-- **Reading takes the match that is found first.** -/
theorem first_timestamp : timestamp.first cs = (Written.read? cs).map Prod.snd := by
  rw [timestamp, first_times_seq, Written.read?]
  cases Written.digits? 4 cs with
  | none => rfl
  | some year =>
    dsimp only [Option.bind_some]
    rw [first_marked_seq]
    cases Written.marked? '-' year.2 with
    | none => rfl
    | some month =>
      dsimp only [Option.bind_some]
      rw [first_marked_seq]
      cases Written.marked? '-' month.2 with
      | none => rfl
      | some day =>
        dsimp only [Option.bind_some]
        rw [first_optional, getD_first_time]
        rfl

/-! ## The language is the form

What matches a part of the pattern is what the part of a written timestamp spells. -/

theorem mem_digit : s ∈ digit.language ↔ ∃ d, isDecimalDigit d = true ∧ s = [d] :=
  mem_one

theorem mem_times_digit : s ∈ (times n digit).language ↔ Figure n s := by
  rw [mem_language_iff, remainders_times]
  simp [Written.digits?_eq_some_iff]

theorem mem_marked : s ∈ (marked mark).language ↔ ∃ ds, Figure 2 ds ∧ mark :: ds = s := by
  simp [marked, mem_seq, mem_char, mem_times_digit]

theorem mem_atMost_digit : s ∈ (atMost n digit).language ↔ Digits s ∧ s.length ≤ n := by
  induction n generalizing s with
  | zero =>
    rw [atMost, mem_empty, Nat.le_zero, List.length_eq_zero_iff]
    exact ⟨fun h => ⟨h ▸ Written.digits_nil, h⟩, And.right⟩
  | succ n ih =>
    simp only [atMost, mem_optional, mem_seq, mem_digit, ih]
    cases s with
    | nil => simp [Written.digits_nil]
    | cons d ds => simp [Written.digits_cons, and_assoc]

theorem mem_optional_fraction : s ∈ (optional fraction).language ↔
    ∃ ds, (Digits ds ∧ ds.length ≤ 9) ∧ Written.spellFraction ds = s := by
  simp only [mem_optional, fraction, mem_seq, mem_char, mem_digit, mem_atMost_digit]
  constructor
  · rintro (⟨_, rfl, _, ⟨_, ⟨d, hd, rfl⟩, ds, ⟨hds, hlength⟩, rfl⟩, rfl⟩ | rfl)
    · exact ⟨d :: ds, ⟨Written.digits_cons.mpr ⟨hd, hds⟩, Nat.succ_le_succ hlength⟩, rfl⟩
    · exact ⟨[], ⟨Written.digits_nil, Nat.zero_le _⟩, rfl⟩
  · rintro ⟨ds, ⟨hds, hlength⟩, rfl⟩
    cases ds with
    | nil => exact .inr rfl
    | cons d ds =>
      obtain ⟨hd, hds⟩ := Written.digits_cons.mp hds
      have hlength : ds.length ≤ 8 := Nat.le_of_succ_le_succ hlength
      exact .inl ⟨['.'], rfl, d :: ds, ⟨[d], ⟨d, hd, rfl⟩, ds, ⟨hds, hlength⟩, rfl⟩, rfl⟩

theorem mem_seconds :
    s ∈ seconds.language ↔ ∃ x : WrittenSeconds, x.WellFormed ∧ Written.spellSeconds x = s := by
  simp only [seconds, mem_seq, mem_marked, mem_optional_fraction]
  constructor
  · rintro ⟨_, ⟨ds, hds, rfl⟩, _, ⟨fs, ⟨hfs, hlength⟩, rfl⟩, rfl⟩
    exact ⟨⟨ds, fs⟩, ⟨hds, hfs, hlength⟩, rfl⟩
  · rintro ⟨⟨ds, fs⟩, ⟨hds, hfs, hlength⟩, rfl⟩
    exact ⟨_, ⟨ds, hds, rfl⟩, _, ⟨fs, ⟨hfs, hlength⟩, rfl⟩, rfl⟩

theorem mem_minutes : s ∈ minutes.language ↔ ∃ (colon : Bool) (ds : List Char),
    Figure 2 ds ∧ (if colon then [':'] else []) ++ ds = s := by
  simp only [minutes, mem_seq, mem_optional, mem_char, mem_times_digit]
  constructor
  · rintro ⟨_, rfl | rfl, ds, hds, rfl⟩
    · exact ⟨true, ds, hds, rfl⟩
    · exact ⟨false, ds, hds, rfl⟩
  · rintro ⟨colon, ds, hds, rfl⟩
    refine ⟨_, ?_, ds, hds, rfl⟩
    cases colon with
    | true => exact .inl rfl
    | false => exact .inr rfl

theorem mem_sign : s ∈ (one fun c => c == '+' || c == '-').language ↔
    ∃ negative : Bool, [if negative then '-' else '+'] = s := by
  rw [mem_one]
  constructor
  · rintro ⟨c, hc, rfl⟩
    simp only [Bool.or_eq_true, beq_iff_eq] at hc
    rcases hc with rfl | rfl
    · exact ⟨false, rfl⟩
    · exact ⟨true, rfl⟩
  · rintro ⟨negative, rfl⟩
    refine ⟨_, ?_, rfl⟩
    cases negative <;> rfl

theorem mem_zone :
    s ∈ zone.language ↔ ∃ z : WrittenZone, z.WellFormed ∧ Written.spellZone z = s := by
  simp only [zone, offset, mem_choice, mem_seq, mem_char, mem_sign, mem_times_digit, mem_minutes]
  constructor
  · rintro (rfl | ⟨_, ⟨negative, rfl⟩, _, ⟨hours, hh, _, ⟨colon, minutes, hm, rfl⟩, rfl⟩, rfl⟩)
    · exact ⟨.utc, trivial, rfl⟩
    · exact ⟨.offset negative hours colon minutes, ⟨hh, hm⟩, by simp [Written.spellZone]⟩
  · rintro ⟨z, hz, rfl⟩
    cases z with
    | utc => exact .inl rfl
    | offset negative hours colon minutes =>
      obtain ⟨hh, hm⟩ := hz
      exact .inr ⟨_, ⟨negative, rfl⟩, _, ⟨hours, hh, _, ⟨colon, minutes, hm, rfl⟩, rfl⟩,
        by simp [Written.spellZone]⟩

theorem mem_time :
    s ∈ time.language ↔ ∃ t : WrittenTime, t.WellFormed ∧ Written.spellTime t = s := by
  simp only [time, mem_seq, mem_marked, mem_optional_iff (fun _ => mem_seconds),
    mem_optional_iff (fun _ => mem_zone)]
  constructor
  · rintro ⟨_, ⟨hours, hh, rfl⟩, _, ⟨_, ⟨minutes, hm, rfl⟩, _, ⟨_, ⟨seconds, hs, rfl⟩, _,
      ⟨zone, hz, rfl⟩, rfl⟩, rfl⟩, rfl⟩
    exact ⟨⟨hours, minutes, seconds, zone⟩, ⟨hh, hm, hs, hz⟩, by simp [Written.spellTime]⟩
  · rintro ⟨⟨hours, minutes, seconds, zone⟩, ⟨hh, hm, hs, hz⟩, rfl⟩
    exact ⟨_, ⟨hours, hh, rfl⟩, _, ⟨_, ⟨minutes, hm, rfl⟩, _, ⟨_, ⟨seconds, hs, rfl⟩, _,
      ⟨zone, hz, rfl⟩, rfl⟩, rfl⟩, by simp [Written.spellTime]⟩

/-- **The language of the pattern** is the form of timestamps. -/
theorem mem_timestamp : s ∈ timestamp.language ↔ Timestamp.InForm s := by
  simp only [timestamp, mem_seq, mem_times_digit, mem_marked, mem_optional_iff (fun _ => mem_time)]
  constructor
  · rintro ⟨year, hy, _, ⟨_, ⟨month, hm, rfl⟩, _, ⟨_, ⟨day, hd, rfl⟩, _, ⟨time, ht, rfl⟩, rfl⟩,
      rfl⟩, rfl⟩
    exact ⟨⟨year, month, day, time⟩, ⟨hy, hm, hd, ht⟩, by simp [Written.spell]⟩
  · rintro ⟨⟨year, month, day, time⟩, ⟨hy, hm, hd, ht⟩, rfl⟩
    exact ⟨year, hy, _, ⟨_, ⟨month, hm, rfl⟩, _, ⟨_, ⟨day, hd, rfl⟩, _, ⟨time, ht, rfl⟩, rfl⟩,
      rfl⟩, by simp [Written.spell]⟩

end Pattern

/-! ## The greatest length -/

namespace Timestamp

variable {n : Nat} {s cs spelling rest : List Char}

/-- A length is found if and only if the text begins with a match. -/
theorem exists_leadingLength?_iff : (∃ n, leadingLength? cs = some n) ↔
    ∃ s ∈ Pattern.timestamp.language, s <+: cs := by
  rw [← Pattern.exists_first_iff, Pattern.first_timestamp, leadingLength?, leading?]
  cases Written.read? cs with
  | none => simp
  | some x => simp

/-- What matches at the front of a text stands at the front of what is read. -/
theorem isPrefix_of_leading? (h : leading? cs = some (spelling, rest))
    (hs : s ∈ Pattern.timestamp.language) (hfront : s <+: cs) : s <+: spelling := by
  -- both stand at the front of one text, and the match leaves at least as much of it
  obtain ⟨-, happend, hlongest⟩ := leading?_eq_some_iff.mp h
  obtain ⟨rest', happend'⟩ := hfront
  have hrest : rest.length ≤ rest'.length :=
    hlongest s rest' (Pattern.mem_timestamp.mp hs) happend'.symm
  have hsum := congrArg List.length (happend'.trans happend)
  simp only [List.length_append] at hsum
  exact List.prefix_of_prefix_length_le ⟨rest', happend'⟩ ⟨rest, happend.symm⟩ (by omega)

theorem isGreatest_of_leadingLength? (h : leadingLength? cs = some n) :
    IsGreatest (Pattern.timestamp.lengths cs) n := by
  obtain ⟨⟨spelling, rest⟩, hlead, rfl⟩ := Option.map_eq_some_iff.mp h
  have hs : spelling ∈ Pattern.timestamp.language :=
    Pattern.mem_timestamp.mpr (inForm_of_leading? hlead)
  refine ⟨⟨spelling, hs, ⟨rest, leading?_append hlead⟩, rfl⟩, ?_⟩
  rintro _ ⟨s, hs, hfront, rfl⟩
  obtain ⟨more, rfl⟩ := isPrefix_of_leading? hlead hs hfront
  show byteLength s ≤ byteLength (s ++ more)
  rw [byteLength_append]
  exact Nat.le_add_right ..

theorem leadingLength?_eq_some_iff :
    leadingLength? cs = some n ↔ IsGreatest (Pattern.timestamp.lengths cs) n := by
  constructor
  · exact isGreatest_of_leadingLength?
  · intro h
    -- a match has the greatest length, so some length is found, and the greatest is unique
    obtain ⟨s, hs, hfront, -⟩ := h.1
    obtain ⟨m, hm⟩ := exists_leadingLength?_iff.mpr ⟨s, hs, hfront⟩
    rw [hm, (isGreatest_of_leadingLength? hm).unique h]

/-- **The longest timestamp is found.** A length is found if and only if a text begins with
something that matches; it is then the greatest length of all that matches at the front. A text
has the form of a timestamp if and only if it matches as a whole. -/
theorem leadingLength?_longest (cs : List Char) :
    ((∃ n, leadingLength? cs = some n) ↔ ∃ s ∈ Pattern.timestamp.language, s <+: cs) ∧
      (∀ n, leadingLength? cs = some n ↔ IsGreatest (Pattern.timestamp.lengths cs) n) ∧
      (hasForm cs = true ↔ cs ∈ Pattern.timestamp.language) :=
  ⟨exists_leadingLength?_iff, fun _ => leadingLength?_eq_some_iff,
    hasForm_iff.trans Pattern.mem_timestamp.symm⟩

/-- Seconds of one digit are none, and a zone does not begin with their colon. -/
example : leadingLength? "2020-01-01T10:30:5+02:00".toList = some 16 := by
  decide +kernel

end Timestamp

end RecordQuery
