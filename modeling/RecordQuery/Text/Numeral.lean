/-! Decimal numerals. Placeholder numbers, page numbers and the digits of
values are all written and read here, so that reading back what was written
is one fact. -/
namespace RecordQuery.Text

/-- The ASCII digit of `d`, for `d` below ten. -/
def digitOf (d : Nat) : Char :=
  Char.ofNat (48 + d)

/-- The value of an ASCII digit. -/
def digitValue (c : Char) : Nat :=
  c.toNat - 48

/-- The decimal digits of `n`, without leading zeros. -/
def numeral (n : Nat) : List Char :=
  if n < 10 then [digitOf n] else numeral (n / 10) ++ [digitOf (n % 10)]

/-- The number that a run of ASCII digits denotes; no digits denote zero. -/
def numeralValue (cs : List Char) : Nat :=
  cs.foldl (fun n c => n * 10 + digitValue c) 0

/-- The digits of `n`, with zeros in front up to `width` of them. -/
def paddedNumeral (width n : Nat) : List Char :=
  List.replicate (width - (numeral n).length) '0' ++ numeral n

/-- The digits of `n` as a string. -/
def natText (n : Nat) : String :=
  String.ofList (numeral n)

/-- An integer in decimal, a minus sign before a negative one. -/
def intText (n : Int) : String :=
  if n < 0 then "-" ++ natText n.natAbs else natText n.natAbs

/-- A number written with ASCII digits only, at least one. -/
def natural? (cs : List Char) : Option Nat :=
  if !cs.isEmpty && cs.all Char.isDigit then some (numeralValue cs) else none

/-- An integer: digits after at most one sign. -/
def integer? (cs : List Char) : Option Int :=
  match cs with
  | '-' :: digits => (natural? digits).map fun n => -(n : Int)
  | '+' :: digits => (natural? digits).map fun n => (n : Int)
  | digits => (natural? digits).map fun n => (n : Int)

theorem numeral_of_lt {n : Nat} (h : n < 10) : numeral n = [digitOf n] := by
  rw [numeral, if_pos h]

theorem numeral_of_le {n : Nat} (h : 10 ≤ n) :
    numeral n = numeral (n / 10) ++ [digitOf (n % 10)] := by
  rw [numeral, if_neg (Nat.not_lt.mpr h)]

theorem digitValue_digitOf {d : Nat} (h : d < 10) : digitValue (digitOf d) = d := by
  have hall : ∀ e : Fin 10, digitValue (digitOf e) = e := by decide
  exact hall ⟨d, h⟩

theorem isDigit_digitOf {d : Nat} (h : d < 10) : (digitOf d).isDigit = true := by
  have hall : ∀ e : Fin 10, (digitOf e).isDigit = true := by decide
  exact hall ⟨d, h⟩

theorem numeral_ne_nil (n : Nat) : numeral n ≠ [] := by
  rw [numeral]
  split <;> simp

theorem isDigit_of_mem_numeral {n : Nat} {c : Char} (h : c ∈ numeral n) : c.isDigit = true := by
  induction n using Nat.strongRecOn with
  | ind n ih =>
    by_cases hn : n < 10
    · rw [numeral_of_lt hn, List.mem_singleton] at h
      rw [h]
      exact isDigit_digitOf hn
    · rw [numeral_of_le (Nat.not_lt.mp hn), List.mem_append, List.mem_singleton] at h
      rcases h with h | rfl
      · exact ih (n / 10) (by omega) h
      · exact isDigit_digitOf (Nat.mod_lt n (by omega))

theorem numeralValue_concat (cs : List Char) (c : Char) :
    numeralValue (cs ++ [c]) = numeralValue cs * 10 + digitValue c := by
  simp [numeralValue]

/-- Reading undoes writing. -/
theorem numeralValue_numeral (n : Nat) : numeralValue (numeral n) = n := by
  induction n using Nat.strongRecOn with
  | ind n ih =>
    by_cases h : n < 10
    · rw [numeral_of_lt h]
      simp [numeralValue, digitValue_digitOf h]
    · have h : 10 ≤ n := Nat.not_lt.mp h
      rw [numeral_of_le h, numeralValue_concat, ih (n / 10) (by omega),
        digitValue_digitOf (Nat.mod_lt n (by omega))]
      omega

/-- No two numbers are written alike. -/
theorem numeral_inj {m n : Nat} : numeral m = numeral n ↔ m = n := by
  constructor
  · intro h
    rw [← numeralValue_numeral m, h, numeralValue_numeral]
  · exact congrArg numeral

end RecordQuery.Text
