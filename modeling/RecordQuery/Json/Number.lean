import RecordQuery.Double

/-! The numbers that JSON text denotes. Integers of 64 bits are exact. Every other
number is double-precision: its digits are taken as one integer, as far as 64 bits
hold them, which is then multiplied or divided by a power of ten. -/
namespace RecordQuery.Json

open Text (digitValue numeralValue intText)

inductive Number where
  | integer (n : Int)
  | double (negative : Bool) (magnitude : Double)
deriving DecidableEq, Repr

/-- A number as it is written. -/
structure NumberText where
  negative : Bool
  whole : List Char
  fraction : List Char
  exponent : Option Int
deriving DecidableEq, Repr

/-- The parts of a written number. -/
def NumberText.ofChars (cs : List Char) : NumberText :=
  let negative := cs.head? = some '-'
  let unsigned := if negative then cs.drop 1 else cs
  let rest := unsigned.dropWhile Char.isDigit
  let power := rest.dropWhile fun c => c != 'e' && c != 'E'
  { negative := negative
    whole := unsigned.takeWhile Char.isDigit
    fraction := if rest.head? = some '.' then (rest.drop 1).takeWhile Char.isDigit else []
    exponent := if power.isEmpty then none else Text.integer? (power.drop 1) }

namespace Number

/-- The greatest integer without a sign. -/
def maxInteger : Nat := 18446744073709551615

/-- `n` with digits put behind it while there is room, and the digits that are left. -/
def extend (n : Nat) : List Char → Nat × List Char
  | [] => (n, [])
  | c :: cs =>
    if n * 10 + digitValue c ≤ maxInteger then extend (n * 10 + digitValue c) cs else (n, c :: cs)

/-- The number that is written, if it is not too large. -/
def ofText? (w : NumberText) : Option Number :=
  let (n, wholeLeft) := extend 0 w.whole
  let isInteger := wholeLeft.isEmpty && w.fraction.isEmpty && w.exponent.isNone
  if isInteger ∧ !w.negative then some (.integer n)
  else if isInteger ∧ 0 < n ∧ n ≤ 9223372036854775808 then some (.integer (-n))
  else
    let (m, fractionLeft) := extend n w.fraction
    let places : Int := wholeLeft.length + fractionLeft.length - w.fraction.length
    ((Double.ofNat m).scale? (places + w.exponent.getD 0)).map (.double w.negative)

/-- The number that `cs` writes. -/
def read? (cs : List Char) : Option Number :=
  ofText? (NumberText.ofChars cs)

def text : Number → String
  | .integer n => intText n
  | .double negative x => if negative then "-" ++ x.text else x.text

end Number

end RecordQuery.Json
