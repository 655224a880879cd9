import Verdict.Number.Digits
import Verdict.Number.Double

namespace Verdict

namespace Magnitude

/-- The distance to the next magnitude above, in units. -/
def gapAbove (m : Magnitude) : Nat :=
  twoPow (m.units.log2 - 52)

/-- The distance to the next magnitude below, in units: half as much just above a power of two,
unless the units themselves are the limit. -/
def gapBelow (m : Magnitude) : Nat :=
  if m.units = twoPow m.units.log2 ∧ 52 < m.units.log2 then m.gapAbove / 2 else m.gapAbove

/-- The power of ten by which magnitudes are scaled so that every digit has a whole weight. -/
def decimalScale : Nat := tenPow 340

/-- What a real number in quarters of a unit, scaled, has to exceed or meet to be rounded to the
magnitude. -/
def lowerBound (m : Magnitude) : Nat :=
  (4 * m.units - 2 * m.gapBelow) * decimalScale

/-- What a real number in quarters of a unit, scaled, must not exceed to be rounded to the
magnitude. -/
def upperBound (m : Magnitude) : Nat :=
  (4 * m.units + 2 * m.gapAbove) * decimalScale

/-- Whether a scaled real number is rounded to the magnitude. The bounds themselves are when the
last bit of the magnitude is zero. -/
def covers (m : Magnitude) (x : Nat) : Bool :=
  if m.units / m.gapAbove % 2 = 0 then m.lowerBound ≤ x && x ≤ m.upperBound
  else m.lowerBound < x && x < m.upperBound

/-- The exponent of ten above the first digit: the magnitude lies below that power of ten and not
below a tenth of it. -/
def leadingExponent (m : Magnitude) : Int :=
  (digits (m.units * decimalScale / unitsPerOne)).length - 340

/-- The decimal of `count` digits nearest to the magnitude that reads back as it, if there is one;
of two equally near, the greater. -/
def decimalOfLength? (m : Magnitude) (count : Nat) : Option (Nat × Int) :=
  let exponent := m.leadingExponent - count
  let weight := tenPow (exponent + 340).toNat * (4 * unitsPerOne)
  let value := 4 * m.units * decimalScale
  let below := value / weight
  let low := m.covers (below * weight)
  let high := m.covers ((below + 1) * weight)
  if low && (!high || 2 * (value % weight) < weight) then some (below, exponent)
  else if high then
    some (if below + 1 = tenPow count then (1, exponent + count) else (below + 1, exponent))
  else none

/-- The shortest decimal that reads back as the magnitude: its digits and its exponent of ten.
Seventeen digits always suffice. -/
def shortest (m : Magnitude) : Nat × Int :=
  ((List.range 17).findSome? fun count => m.decimalOfLength? (count + 1)).getD (0, 0)

end Magnitude

/-- Writes `n * 10 ^ exponent` without an exponent. -/
def positional (n : Nat) (exponent : Int) : List Char :=
  let ds := digits n
  let places := (-exponent).toNat
  if 0 ≤ exponent then ds ++ List.replicate exponent.toNat '0'
  else if places < ds.length then
    ds.take (ds.length - places) ++ '.' :: ds.drop (ds.length - places)
  else '0' :: '.' :: (List.replicate (places - ds.length) '0' ++ ds)

namespace Double

/-- Numbers from which on a whole number is written by its shortest decimal, filled with zeros,
rather than by all its digits. -/
def wholeLimit : Nat := tenPow 21

/-- The text of a number: `1` rather than `1.0`, and `0` for both zeros. -/
def toText : Double → List Char
  | nan => "NaN".toList
  | infinite negative => if negative then "-Infinity".toList else "Infinity".toList
  | finite negative m =>
    if m.units % unitsPerOne = 0 ∧ m.units < wholeLimit * unitsPerOne then
      let n : Int := (m.units / unitsPerOne : Nat)
      intText (if negative then -n else n)
    else
      let (n, exponent) := m.shortest
      let text := positional n exponent
      if negative then '-' :: text else text

end Double

end Verdict
