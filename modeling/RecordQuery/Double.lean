import RecordQuery.Text.Numeral

/-! Double-precision numbers without a sign, in exact arithmetic. Each of them is a
multiple of the least positive one, 2 ^ -1074, and is kept as that multiple. Products
and quotients are formed exactly and then rounded once. -/
namespace RecordQuery

/-- A double-precision number, as a multiple of the least positive one. -/
structure Double where
  units : Nat
deriving DecidableEq, Repr

namespace Double

open Text

/-! ## Rounding -/

/-- How many units one is. -/
def unitsOfOne : Nat := Nat.pow 2 1074

/-- How far apart the numbers around `n` units are: 53 binary digits tell them apart. -/
def spacing (n : Nat) : Nat := Nat.pow 2 (n.log2 - 52)

/-- The natural number nearest to `n / d`. A tie goes to the even one. -/
def nearest (n d : Nat) : Nat :=
  if 2 * (n % d) < d then n / d
  else if d < 2 * (n % d) then n / d + 1
  else n / d + n / d % 2

/-- The number nearest to `n / d` units. -/
def round (n d : Nat) : Double :=
  let step := spacing (n / d)
  ⟨nearest n (d * step) * step⟩

/-- The number is finite. A rounded number that is not stands for infinity. -/
def isFinite (x : Double) : Bool :=
  x.units < Nat.pow 2 2098

def ofNat (n : Nat) : Double :=
  round (n * unitsOfOne) 1

def mul (x y : Double) : Double :=
  round (x.units * y.units) unitsOfOne

def div (x y : Double) : Double :=
  round (x.units * unitsOfOne) y.units

/-! ## Powers of ten -/

/-- The greatest power of ten there is. -/
def maxPlaces : Nat := 308

/-- The number divided by a power of ten, rounded at every `maxPlaces` places. -/
def shrink (x : Double) (places : Nat) : Double :=
  if places ≤ maxPlaces then x.div (ofNat (Nat.pow 10 places))
  else if x.units = 0 then x
  else (x.div (ofNat (Nat.pow 10 maxPlaces))).shrink (places - maxPlaces)
termination_by places
decreasing_by simp only [maxPlaces] at *; omega

/-- The number times a power of ten, if that is finite. -/
def scale? (x : Double) (places : Int) : Option Double :=
  if places < 0 then some (x.shrink places.natAbs)
  else if x.units = 0 then some x
  else if maxPlaces < places.toNat then none
  else
    let product := x.mul (ofNat (Nat.pow 10 places.toNat))
    if product.isFinite then some product else none

/-! ## Decimal notation

The digits are the fewest that no other number is nearer to. They are looked for on
ever finer decimal grids, in units of 10 ^ -1076, of which every number and every
middle between two numbers is a multiple. -/

/-- How many digits `n` has. -/
def digitCount (n : Nat) : Nat :=
  if n < 10 then 1 else digitCount (n / 10) + 1

/-- The reals that are nearer to a number than to any other number. -/
structure Interval where
  value : Nat
  /-- How far the interval goes below the number and above it. -/
  below : Nat
  above : Nat
  /-- The ends belong to the interval. -/
  isClosed : Bool

/-- The reals that are rounded to `x`. Below a power of two numbers are closer together. -/
def interval (x : Double) : Interval :=
  let unit := 4 * Nat.pow 5 1076
  let step := spacing x.units
  { value := x.units * unit
    above := step * unit / 2
    below :=
      if 1 < step ∧ x.units = step * Nat.pow 2 52 then step * unit / 4 else step * unit / 2
    isClosed := x.units / step % 2 == 0 }

def Interval.contains (i : Interval) (n : Nat) : Bool :=
  if i.isClosed then i.value ≤ n + i.below && n ≤ i.value + i.above
  else i.value < n + i.below && n < i.value + i.above

/-- The multiple of `grid` that is nearest to the number, of those in the interval. -/
def Interval.candidate? (i : Interval) (grid : Nat) : Option Nat :=
  let low := i.value / grid
  let isLow := i.contains (low * grid)
  let isHigh := i.contains ((low + 1) * grid)
  if isLow && isHigh then some (nearest i.value grid)
  else if isLow then some low
  else if isHigh then some (low + 1)
  else none

/-- The digits of a number and the power of ten they are multiplied by. Seventeen digits
are always enough. -/
def decimal (x : Double) : List Char × Int :=
  let i := x.interval
  let length := digitCount i.value
  let (n, exponent) :=
    ((List.range 17).findSome? fun k =>
      let exponent := length - (k + 1)
      (i.candidate? (Nat.pow 10 exponent)).map fun n => (n, exponent)).getD (i.value, 0)
  let reversed := (numeral n).reverse
  let kept := reversed.dropWhile (· = '0')
  (kept.reverse, (exponent : Int) - 1076 + (reversed.length - kept.length : Nat))

/-- Digits times a power of ten. Sixteen places before the point are written out, and five
after it; other numbers are written with an exponent. -/
def layOut (digits : List Char) (exponent : Int) : List Char :=
  let point := digits.length + exponent
  if 0 ≤ exponent ∧ point ≤ 16 then
    digits ++ List.replicate exponent.toNat '0' ++ ['.', '0']
  else if 0 < point ∧ point ≤ 16 then
    digits.take point.toNat ++ '.' :: digits.drop point.toNat
  else if -5 < point ∧ point ≤ 0 then
    '0' :: '.' :: List.replicate point.natAbs '0' ++ digits
  else
    digits.take 1 ++ (if digits.length = 1 then [] else '.' :: digits.drop 1) ++
      'e' :: (intText (point - 1)).toList

/-- The number in decimal notation. -/
def text (x : Double) : String :=
  if x.units = 0 then "0.0"
  else String.ofList (layOut x.decimal.1 x.decimal.2)

end Double

end RecordQuery
