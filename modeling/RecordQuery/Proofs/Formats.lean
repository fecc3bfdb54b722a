import RecordQuery.Proofs.WrittenInstants

/-!
# Formats

A format says, item by item, what a text has to begin with: a number, a mark, a fraction or an
offset. What the items read is put together, and calendar and clock decide whether there is such a
time. A strict number has all its digits; another one may leave out zeros, and blanks may stand
before it. Digits are ASCII digits throughout, so that a text that is read as a whole has no others.
-/

namespace RecordQuery

open Text
open Written (Figure)

/-- What a number in a format stands for. -/
inductive TimePart where
  | year
  | month
  | day
  | hours
  | minutes
  | seconds
deriving DecidableEq, Repr

/-- How many digits the part has. -/
def TimePart.width : TimePart → Nat
  | .year => 4
  | _ => 2

/-- What a format asks for at the front of a text. -/
inductive FormatItem where
  | number (strict : Bool) (part : TimePart)
  /-- One of some characters. -/
  | mark (choices : List Char)
  /-- A point and digits, or nothing. -/
  | fraction
  | offset (strict : Bool)
deriving DecidableEq, Repr

/-- What has been read of a time. It is zero where nothing is written. -/
structure TimeReading where
  year : Int := 0
  month : Nat := 0
  day : Nat := 0
  hours : Nat := 0
  minutes : Nat := 0
  seconds : Nat := 0
  nanoseconds : Nat := 0
  /-- Clocks are behind UTC by the offset, and not ahead of it. -/
  west : Bool := false
  offsetHours : Nat := 0
  offsetMinutes : Nat := 0
deriving DecidableEq, Repr

namespace TimeReading

def set (r : TimeReading) (part : TimePart) (n : Int) : TimeReading :=
  match part with
  | .year => { r with year := n }
  | .month => { r with month := n.toNat }
  | .day => { r with day := n.toNat }
  | .hours => { r with hours := n.toNat }
  | .minutes => { r with minutes := n.toNat }
  | .seconds => { r with seconds := n.toNat }

def withOffset (r : TimeReading) (west : Bool) (hours minutes : List Char) : TimeReading :=
  { r with
    west
    offsetHours := numeralValue hours
    offsetMinutes := numeralValue minutes }

/-- The first and the last year that formats know. -/
def inCalendar (date : Date) : Bool :=
  -262143 ≤ date.year && date.year ≤ 262142

/-- The point in time, if calendar and clock have it. -/
def timestamp? (r : TimeReading) : Option Timestamp := do
  let date ← (Date.ofParts? r.year r.month r.day).filter inCalendar
  let offset ← UtcOffset.ofParts? r.west r.offsetHours r.offsetMinutes
  let shown ← Written.shown? date r.hours r.minutes r.seconds r.nanoseconds
  (some (shown.ofLocal offset)).filter fun t => inCalendar t.date

end TimeReading

namespace FormatItem

/-! ## Reading -/

/-- The ASCII digits at the front of a text, up to `most` of them. -/
def leadingDigits (most : Nat) (cs : List Char) : List Char :=
  (cs.take most).takeWhile Char.isDigit

/-- The digits at the front, if they are at least `least`, and what follows them. -/
def digits? (least most : Nat) (cs : List Char) : Option (List Char × List Char) :=
  if (leadingDigits most cs).length < least then none
  else some (leadingDigits most cs, cs.drop (leadingDigits most cs).length)

/-- A number that may leave out zeros. A year may have a sign, and then any number of digits. -/
def number? (part : TimePart) (cs : List Char) : Option (Int × List Char) :=
  match part, cs with
  | .year, '-' :: rest =>
    (digits? 1 rest.length rest).map fun (ds, rest) => (-(numeralValue ds : Int), rest)
  | .year, '+' :: rest =>
    (digits? 1 rest.length rest).map fun (ds, rest) => ((numeralValue ds : Int), rest)
  | _, _ => (digits? 1 part.width cs).map fun (ds, rest) => ((numeralValue ds : Int), rest)

/-- Whether a sign says that clocks are behind UTC. There are two minus signs. -/
def west? : Char → Option Bool
  | '+' => some false
  | '-' => some true
  | '\u2212' => some true
  | _ => none

/-- What follows the mark between hours and minutes: one colon, or as many colons and blanks as
there are. -/
def separated? (strict : Bool) (cs : List Char) : Option (List Char) :=
  match strict, cs with
  | true, ':' :: rest => some rest
  | true, _ => none
  | false, _ => some (cs.dropWhile fun c => c == ':' || isBlank c)

/-- The offset behind its sign. -/
def offsetBehind? (strict west : Bool) (r : TimeReading) (cs : List Char) :
    Option (TimeReading × List Char) := do
  let (hours, rest) ← digits? 2 2 cs
  let (minutes, rest) ← digits? 2 2 (← separated? strict rest)
  return (r.withOffset west hours minutes, rest)

/-- An offset. The mark of UTC is one only for strict formats. -/
def offset? (strict : Bool) (r : TimeReading) (cs : List Char) :
    Option (TimeReading × List Char) :=
  match cs with
  | [] => none
  | c :: rest =>
    if strict && (c == 'Z' || c == 'z') then some (r, rest)
    else (west? c).bind fun west => offsetBehind? strict west r rest

/-- What is known with the item, and what follows it. -/
def read? (item : FormatItem) (r : TimeReading) (cs : List Char) :
    Option (TimeReading × List Char) :=
  match item, cs with
  | .number true part, cs =>
    (digits? part.width part.width cs).map fun (ds, rest) => (r.set part (numeralValue ds), rest)
  | .number false part, cs =>
    (number? part (cs.dropWhile isBlank)).map fun (n, rest) => (r.set part n, rest)
  | .mark _, [] => none
  | .mark choices, c :: rest => if c ∈ choices then some (r, rest) else none
  | .fraction, '.' :: rest =>
    -- digits beyond the ninth are passed over
    (digits? 1 9 rest).map fun (ds, rest) =>
      ({ r with nanoseconds := numeralValue ds * 10 ^ (9 - ds.length) },
        rest.dropWhile Char.isDigit)
  | .fraction, cs => some (r, cs)
  | .offset true, cs => offset? true r cs
  | .offset false, cs => offset? false r (cs.dropWhile isBlank)

/-- What is known when the items have read all of the text. -/
def readAll? : List FormatItem → TimeReading → List Char → Option TimeReading
  | [], r, cs => if cs.isEmpty then some r else none
  | item :: items, r, cs => (item.read? r cs).bind fun (r, rest) => readAll? items r rest

/-! ## Digits of other scripts are not read -/

/-- The characters that are a mark. -/
def choices : FormatItem → List Char
  | .mark choices => choices
  | _ => []

variable {item : FormatItem} {items : List FormatItem} {part : TimePart} {strict west : Bool}
  {least most : Nat} {n : Int} {c : Char} {ds cs rest : List Char} {r r' : TimeReading}

theorem digits?_eq_some (h : digits? least most cs = some (ds, rest)) :
    cs = ds ++ rest ∧ Digits ds := by
  unfold digits? at h
  split at h
  · cases h
  · cases h
    refine ⟨?_, fun d hd => List.mem_takeWhile_imp hd⟩
    have hfront : leadingDigits most cs <+: cs :=
      (List.takeWhile_prefix _).trans (List.take_prefix most cs)
    exact (List.prefix_iff_eq_append.mp hfront).symm

theorem asciiDigits_cons (hc : isDecimalDigit c = true → c.isDigit = true)
    (hcs : AsciiDigits cs) : AsciiDigits (c :: cs) :=
  List.forall_mem_cons.mpr ⟨hc, hcs⟩

theorem asciiDigits_of_digits? (h : digits? least most cs = some (ds, rest))
    (hrest : AsciiDigits rest) : AsciiDigits cs := by
  obtain ⟨rfl, hds⟩ := digits?_eq_some h
  exact asciiDigits_append.mpr ⟨asciiDigits_of_digits hds, hrest⟩

theorem asciiDigits_of_dropWhile {p : Char → Bool}
    (hp : ∀ c, p c = true → isDecimalDigit c = true → c.isDigit = true)
    (h : AsciiDigits (cs.dropWhile p)) : AsciiDigits cs := by
  rw [← List.takeWhile_append_dropWhile (p := p) (l := cs)]
  refine asciiDigits_append.mpr ⟨?_, h⟩
  intro c hc
  exact hp c (List.mem_takeWhile_imp hc)

/-- No digit of any script is a blank. -/
theorem isDecimalDigit_eq_false_of_isBlank (h : isBlank c = true) : isDecimalDigit c = false :=
  inside_isDecimalDigit c (mem_separators_of_isBlank h)

theorem asciiDigits_of_dropWhile_isBlank (h : AsciiDigits (cs.dropWhile isBlank)) :
    AsciiDigits cs := by
  refine asciiDigits_of_dropWhile ?_ h
  intro c hc hdigit
  rw [isDecimalDigit_eq_false_of_isBlank hc] at hdigit
  cases hdigit

theorem asciiDigits_of_number? (h : number? part cs = some (n, rest))
    (hrest : AsciiDigits rest) : AsciiDigits cs := by
  unfold number? at h
  split at h
  all_goals
    obtain ⟨⟨ds, rest'⟩, hdigits, he⟩ := Option.map_eq_some_iff.mp h
    cases he
    have hbehind := asciiDigits_of_digits? hdigits hrest
  · exact (asciiDigits_mark (by decide)).mpr hbehind
  · exact (asciiDigits_mark (by decide)).mpr hbehind
  · exact hbehind

theorem isDecimalDigit_eq_false_of_west? (h : west? c = some west) : isDecimalDigit c = false := by
  unfold west? at h
  split at h
  · decide +kernel
  · decide +kernel
  · decide +kernel
  · cases h

theorem asciiDigits_of_separated? (h : separated? strict cs = some rest)
    (hrest : AsciiDigits rest) : AsciiDigits cs := by
  unfold separated? at h
  split at h
  · cases h
    exact (asciiDigits_mark (by decide)).mpr hrest
  · cases h
  · cases h
    refine asciiDigits_of_dropWhile ?_ hrest
    intro c hc hdigit
    rcases Bool.or_eq_true_iff.mp hc with hcolon | hblank
    · rw [beq_iff_eq.mp hcolon] at hdigit
      exact absurd hdigit (by decide +kernel)
    · rw [isDecimalDigit_eq_false_of_isBlank hblank] at hdigit
      cases hdigit

theorem asciiDigits_of_offsetBehind? (h : offsetBehind? strict west r cs = some (r', rest))
    (hrest : AsciiDigits rest) : AsciiDigits cs := by
  simp only [offsetBehind?, Option.bind_eq_bind, Option.bind_eq_some_iff] at h
  obtain ⟨⟨hours, cs₁⟩, hh, cs₂, hs, ⟨minutes, cs₃⟩, hm, he⟩ := h
  cases he
  exact asciiDigits_of_digits? hh (asciiDigits_of_separated? hs (asciiDigits_of_digits? hm hrest))

theorem asciiDigits_of_offset? (h : offset? strict r cs = some (r', rest))
    (hrest : AsciiDigits rest) : AsciiDigits cs := by
  cases cs with
  | nil => exact asciiDigits_nil
  | cons c cs =>
    rw [offset?] at h
    split at h
    · rename_i hutc
      cases h
      refine asciiDigits_cons ?_ hrest
      simp only [Bool.and_eq_true, Bool.or_eq_true, beq_iff_eq] at hutc
      rcases hutc.2 with rfl | rfl <;> decide +kernel
    · obtain ⟨west, hw, hbehind⟩ := Option.bind_eq_some_iff.mp h
      refine asciiDigits_cons ?_ (asciiDigits_of_offsetBehind? hbehind hrest)
      intro hdigit
      rw [isDecimalDigit_eq_false_of_west? hw] at hdigit
      cases hdigit

/-- What an item reads has no digits but ASCII digits. -/
theorem asciiDigits_of_read? (hitem : AsciiDigits item.choices)
    (h : item.read? r cs = some (r', rest)) (hrest : AsciiDigits rest) : AsciiDigits cs := by
  unfold read? at h
  split at h
  · obtain ⟨⟨ds, rest'⟩, hdigits, he⟩ := Option.map_eq_some_iff.mp h
    cases he
    exact asciiDigits_of_digits? hdigits hrest
  · obtain ⟨⟨n, rest'⟩, hnumber, he⟩ := Option.map_eq_some_iff.mp h
    cases he
    exact asciiDigits_of_dropWhile_isBlank (asciiDigits_of_number? hnumber hrest)
  · cases h
  · split at h
    · rename_i hmem
      cases h
      exact asciiDigits_cons (hitem _ hmem) hrest
    · cases h
  · obtain ⟨⟨ds, rest'⟩, hdigits, he⟩ := Option.map_eq_some_iff.mp h
    cases he
    refine (asciiDigits_mark (by decide)).mpr (asciiDigits_of_digits? hdigits ?_)
    exact asciiDigits_of_dropWhile (fun _ hdigit _ => hdigit) hrest
  · cases h
    exact hrest
  · exact asciiDigits_of_offset? h hrest
  · exact asciiDigits_of_dropWhile_isBlank (asciiDigits_of_offset? h hrest)

/-- **A text that is read as a whole** has no digits but ASCII digits. -/
theorem asciiDigits_of_readAll? (hitems : ∀ item ∈ items, AsciiDigits item.choices)
    (h : readAll? items r cs = some r') : AsciiDigits cs := by
  induction items generalizing r cs with
  | nil =>
    rw [readAll?] at h
    split at h
    · rename_i hempty
      rw [List.isEmpty_iff.mp hempty]
      exact asciiDigits_nil
    · cases h
  | cons item items ih =>
    obtain ⟨⟨r₁, rest⟩, hread, hall⟩ := Option.bind_eq_some_iff.mp h
    obtain ⟨hitem, hitems⟩ := List.forall_mem_cons.mp hitems
    exact asciiDigits_of_read? hitem hread (ih hitems hall)

/-! ## What is written is read

Digits are written as figures, that is with all of them. An item reads what is written for it and
leaves what follows. -/

theorem readAll?_nil : readAll? [] r [] = some r := rfl

theorem readAll?_of_read? (h : item.read? r cs = some (r', rest)) :
    readAll? (item :: items) r cs = readAll? items r' rest := by
  rw [readAll?, h, Option.bind_some]

theorem readAll?_of_read?_eq_none (h : item.read? r cs = none) :
    readAll? (item :: items) r cs = none := by
  rw [readAll?, h, Option.bind_none]

theorem isBlank_eq_false_of_isDecimalDigit (h : isDecimalDigit c = true) : isBlank c = false := by
  by_contra hblank
  rw [isDecimalDigit_eq_false_of_isBlank (Bool.not_eq_false _ ▸ hblank)] at h
  cases h

/-- Digits are read to the last of them, or as far as they may be. -/
theorem digits?_append (hds : Digits ds) (hleast : least ≤ ds.length) (hmost : ds.length ≤ most)
    (hrest : ds.length = most ∨ ∀ c ∈ rest.head?, c.isDigit = false) :
    digits? least most (ds ++ rest) = some (ds, rest) := by
  have hover : (rest.take (most - ds.length)).takeWhile Char.isDigit = [] := by
    rcases hrest with rfl | hrest
    · rw [Nat.sub_self]
      rfl
    · cases rest with
      | nil => simp
      | cons c rest =>
        have hc := hrest c rfl
        cases most - ds.length <;> simp [hc]
  have hleading : leadingDigits most (ds ++ rest) = ds := by
    rw [leadingDigits, List.take_append, List.take_of_length_le hmost,
      List.takeWhile_append_of_pos hds, hover, List.append_nil]
  rw [digits?, hleading, if_neg (Nat.not_lt.mpr hleast), List.drop_left]

variable {width : Nat}

theorem digits_of_figure (hds : Figure width ds) (hascii : AsciiDigits ds) : Digits ds :=
  fun d hd => hascii d hd (hds.digits d hd)

theorem digits?_figure (hds : Figure width ds) (hascii : AsciiDigits ds) (hleast : least ≤ width)
    (rest : List Char) : digits? least width (ds ++ rest) = some (ds, rest) := by
  have hdigits := digits_of_figure hds hascii
  obtain ⟨rfl, -⟩ := hds
  exact digits?_append hdigits hleast (Nat.le_refl _) (.inl rfl)

/-- A figure begins with a digit, which is neither a blank nor a mark. -/
theorem exists_digit_cons (hds : Figure (width + 1) ds) : ∃ d ds', ds = d :: ds' ∧
    isBlank d = false ∧ ∀ c ∈ Written.marks, d ≠ c := by
  cases ds with
  | nil => cases hds.length
  | cons d ds =>
    have hdigit : isDecimalDigit d = true := hds.digits d List.mem_cons_self
    refine ⟨d, ds, rfl, isBlank_eq_false_of_isDecimalDigit hdigit, ?_⟩
    rintro _ hmark rfl
    rw [Written.isDecimalDigit_of_mem_marks hmark] at hdigit
    cases hdigit

theorem width_eq_succ (part : TimePart) : ∃ n, part.width = n + 1 := by
  cases part <;> exact ⟨_, rfl⟩

/-- A number with all its digits is read whether the format is strict or not. -/
theorem read?_number (part : TimePart) (hds : Figure part.width ds) (hascii : AsciiDigits ds)
    (rest : List Char) : read? (.number strict part) r (ds ++ rest) =
      some (r.set part (numeralValue ds), rest) := by
  cases strict with
  | true => simp [read?, digits?_figure hds hascii (Nat.le_refl _)]
  | false =>
    obtain ⟨n, hwidth⟩ := width_eq_succ part
    have hread := digits?_figure hds hascii (by omega : 1 ≤ part.width) rest
    obtain ⟨d, ds', rfl, hblank, hmarks⟩ := exists_digit_cons (hwidth ▸ hds)
    have hnumber : number? part (d :: ds' ++ rest) =
        some ((numeralValue (d :: ds') : Int), rest) := by
      -- the number begins with no sign
      unfold number?
      split
      · rename_i heq
        exact absurd (List.cons.inj heq).1 (hmarks _ (by decide))
      · rename_i heq
        exact absurd (List.cons.inj heq).1 (hmarks _ (by decide))
      · rw [hread]
        rfl
    rw [read?, List.cons_append, List.dropWhile_cons_of_neg (by simp [hblank]),
      ← List.cons_append, hnumber, Option.map_some]

theorem read?_mark {marks : List Char} (h : c ∈ marks) (rest : List Char) :
    read? (.mark marks) r (c :: rest) = some (r, rest) :=
  if_pos h

theorem read?_mark_of_not_mem {marks : List Char} (h : c ∉ marks) (rest : List Char) :
    read? (.mark marks) r (c :: rest) = none :=
  if_neg h

/-- Where nothing has been read of it, a fraction is zero if it is not written. -/
theorem read?_fraction (hr : r.nanoseconds = 0) (hds : Written.Digits ds)
    (hascii : AsciiDigits ds) (hlength : ds.length ≤ 9) (hrest : Written.SecondsEnd rest) :
    read? .fraction r (Written.spellFraction ds ++ rest) =
      some ({ r with nanoseconds := numeralValue ds * 10 ^ (9 - ds.length) }, rest) := by
  cases ds with
  | nil =>
    have hsame : { r with nanoseconds := 0 } = r := by
      obtain ⟨⟩ := r
      cases hr
      rfl
    rw [numeralValue, List.foldl_nil, Nat.zero_mul, hsame]
    cases rest with
    | nil => rfl
    | cons c rest =>
      obtain ⟨-, hpoint, -⟩ := hrest c rfl
      simp [Written.spellFraction, read?, hpoint]
  | cons d ds =>
    have hend : ∀ c ∈ rest.head?, c.isDigit = false := by
      intro c hc
      by_contra hdigit
      have hdecimal := isDecimalDigit_of_isDigit (Bool.not_eq_false _ ▸ hdigit)
      rw [(hrest c hc).1] at hdecimal
      cases hdecimal
    have hover : rest.dropWhile Char.isDigit = rest := by
      cases rest with
      | nil => rfl
      | cons c rest => exact List.dropWhile_cons_of_neg (by simp [hend c rfl])
    have hdigits : Digits (d :: ds) := fun c hc => hascii c hc (hds c hc)
    have hread : digits? 1 9 (d :: ds ++ rest) = some (d :: ds, rest) :=
      digits?_append hdigits (Nat.succ_pos _) hlength (.inr hend)
    show read? .fraction r ('.' :: (d :: ds ++ rest)) = _
    simp only [read?, hread, Option.map_some, hover]

/-! ### The offset -/

variable {negative colon : Bool} {hours minutes : List Char}

theorem separated?_minutes (hm : Figure 2 minutes) :
    separated? strict ((if colon then [':'] else []) ++ minutes) =
      if strict && !colon then none else some minutes := by
  obtain ⟨d, ds, rfl, hblank, hmarks⟩ := exists_digit_cons hm
  have hcolon : d ≠ ':' := hmarks _ (by decide)
  cases strict <;> cases colon <;> simp [separated?, hcolon, hblank]

theorem offsetBehind?_minutes (hh : Figure 2 hours) (hm : Figure 2 minutes)
    (hah : AsciiDigits hours) (ham : AsciiDigits minutes) :
    offsetBehind? strict west r (hours ++ ((if colon then [':'] else []) ++ minutes)) =
      if strict && !colon then none else some (r.withOffset west hours minutes, []) := by
  have hminutes := digits?_figure hm ham (Nat.le_refl 2) []
  rw [List.append_nil] at hminutes
  simp only [offsetBehind?, Option.bind_eq_bind, digits?_figure hh hah (Nat.le_refl 2),
    Option.bind_some, separated?_minutes hm]
  split
  · rfl
  · rw [Option.bind_some, hminutes]
    rfl

/-- Strict formats do not read an offset without a colon. -/
theorem read?_offset (hh : Figure 2 hours) (hm : Figure 2 minutes) (hah : AsciiDigits hours)
    (ham : AsciiDigits minutes) :
    read? (.offset strict) r (Written.spellZone (.offset negative hours colon minutes)) =
      if strict && !colon then none else some (r.withOffset negative hours minutes, []) := by
  have hoffset : offset? strict r (Written.spellZone (.offset negative hours colon minutes)) =
      if strict && !colon then none else some (r.withOffset negative hours minutes, []) := by
    rw [← offsetBehind?_minutes hh hm hah ham]
    cases negative <;> simp [Written.spellZone, offset?, west?]
  have hblank : (Written.spellZone (.offset negative hours colon minutes)).dropWhile isBlank =
      Written.spellZone (.offset negative hours colon minutes) := by
    cases negative <;> rfl
  cases strict with
  | true => exact hoffset
  | false => rwa [read?, hblank]

end FormatItem

end RecordQuery
