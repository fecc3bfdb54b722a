import RecordQuery.Text.Numeral

/-! Exact decimal numbers. A number keeps the fraction digits it was written
with, so `1.50` and `1.5` differ. Nothing is ever rounded: a text that needs
more digits than there is room for is no decimal. -/
namespace RecordQuery

/-- Coefficients have 96 bits. -/
def Decimal.coefficientBound : Nat := Nat.pow 2 96

/-- There are at most this many fraction digits. -/
def Decimal.maxScale : Nat := 28

/-- The number `coefficient / 10 ^ scale`, negative if so marked. -/
structure Decimal where
  negative : Bool
  coefficient : Nat
  scale : Nat
  coefficient_lt : coefficient < Decimal.coefficientBound
  scale_le : scale ≤ Decimal.maxScale
  /-- Zero has no sign. -/
  unsigned_zero : coefficient = 0 → negative = false
deriving DecidableEq, Repr

namespace Decimal

open Text

/-- The number with the given digits before and after the point, if it fits. -/
def ofDigits? (negative : Bool) (whole fraction : List Char) : Option Decimal :=
  match natural? (whole ++ fraction) with
  | none => none
  | some n =>
    if h : n < coefficientBound ∧ fraction.length ≤ maxScale then
      some ⟨negative && n != 0, n, fraction.length, h.1, h.2, by intro hn; simp [hn]⟩
    else none

/-- The digits before and after the first point. -/
def splitPoint (cs : List Char) : List Char × List Char :=
  (cs.takeWhile (· != '.'), (cs.dropWhile (· != '.')).drop 1)

/-- `cs` without the underscores that group its digits. None may stand before
the first digit. -/
def ungroup? (cs : List Char) : Option (List Char) :=
  if (cs.takeWhile fun c => !c.isDigit).contains '_' then none
  else some (cs.filter (· != '_'))

/-- Reads a number without its sign. No underscore follows the last fraction digit there
is room for. -/
def readUnsigned? (negative : Bool) (cs : List Char) : Option Decimal :=
  (ungroup? cs).bind fun digits =>
    if (splitPoint digits).2.length = maxScale ∧ cs.getLast? = some '_' then none
    else ofDigits? negative (splitPoint digits).1 (splitPoint digits).2

/-- Reads a number: a sign, digits, and a point among them. -/
def read? (cs : List Char) : Option Decimal :=
  match cs with
  | '-' :: rest => readUnsigned? true rest
  | '+' :: rest => readUnsigned? false rest
  | rest => readUnsigned? false rest

/-- The digits of the number, with a zero before the point at least. -/
def digits (d : Decimal) : List Char :=
  paddedNumeral (d.scale + 1) d.coefficient

/-- The number in decimal notation, with all its fraction digits. -/
def written (d : Decimal) : List Char :=
  let cut := d.digits.length - d.scale
  (if d.negative then ['-'] else []) ++ d.digits.take cut ++
    (if d.scale = 0 then [] else '.' :: d.digits.drop cut)

/-- The number in decimal notation as a string. -/
def text (d : Decimal) : String :=
  String.ofList d.written

end Decimal

end RecordQuery
