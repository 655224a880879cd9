import Verdict.Json.Basic
import Verdict.Number.Double.Reader

namespace Verdict.Json

/-- The first number of digits that is too large: digits after those of 64 bits only move the point,
or are dropped after it. -/
def significandLimit : Nat := twoPow 64

/-- The first exponent that is too large. -/
def exponentLimit : Nat := twoPow 31

/-- What has been read of a number: its sign, its digits, the power of ten to apply, and the text
that follows. -/
structure NumberReading where
  negative : Bool
  significand : Nat
  exponent : Int
  rest : List Char

/-- Divides by as many factors of `10 ^ 308` as a small exponent needs, then by the rest of it. The
first argument bounds their number. -/
def divideByPower : Nat → Double → Nat → Double
  | 0, x, n => x / .ofDecimal false 1 n
  | fuel + 1, x, n =>
    if n ≤ 308 then x / .ofDecimal false 1 n
    else if x.rank = 0 then x
    else divideByPower fuel (x / .ofDecimal false 1 308) (n - 308)

/-- The number that digits and a power of ten make, rounded one after the other; none if it is too
large. -/
def scale? (significand : Nat) (exponent : Int) : Option Double :=
  let x := Double.ofInt significand
  if exponent < 0 then some (divideByPower exponent.natAbs x exponent.natAbs)
  else if exponent ≤ 308 then
    let y := x * .ofDecimal false 1 exponent
    if y.isFinite then some y else none
  else if significand = 0 then some x
  else none

/-- A floating-point number with the sign that was read. -/
def signed (negative : Bool) (x : Double) : Json :=
  .float (if negative then -x else x)

/-- Ends the reading of a number that has a point or an exponent. -/
def NumberReading.finish (r : NumberReading) : Option (Json × List Char) :=
  (scale? r.significand r.exponent).map fun x => (signed r.negative x, r.rest)

/-- Reads the digits of an exponent, of which there is at least one. An exponent beyond 32 bits is
taken for an endless one: it is refused, or makes a zero. -/
def NumberReading.readExponent (r : NumberReading) (down : Bool) : Option (Json × List Char) :=
  let (ds, rest) := r.rest.span Char.isDigit
  let n := readDigits 0 ds
  if ds.isEmpty then none
  else if exponentLimit ≤ n then
    if r.significand != 0 && !down then none else some (signed r.negative 0, rest)
  else
    let exponent := if down then r.exponent - n else r.exponent + n
    { r with exponent := max (-exponentLimit) (min (exponentLimit - 1) exponent), rest }.finish

/-- Reads an exponent if there is one, and ends the reading. -/
def NumberReading.readEnd (r : NumberReading) : Option (Json × List Char) :=
  match r.rest with
  | c :: rest =>
    if c = 'e' ∨ c = 'E' then
      match rest with
      | '+' :: rest => { r with rest }.readExponent false
      | '-' :: rest => { r with rest }.readExponent true
      | rest => { r with rest }.readExponent false
    else r.finish
  | [] => r.finish

/-- Takes digits after the point into the significand while there is room, and drops the others. -/
def takeFraction (significand : Nat) (exponent : Int) : List Char → Nat × Int
  | [] => (significand, exponent)
  | c :: rest =>
    let next := significand * 10 + digitValue c
    if significandLimit ≤ next then (significand, exponent)
    else takeFraction next (exponent - 1) rest

/-- Reads what follows the digits before the point. -/
def NumberReading.readFraction (r : NumberReading) : Option (Json × List Char) :=
  match r.rest with
  | '.' :: rest =>
    let (ds, rest) := rest.span Char.isDigit
    if ds.isEmpty then none
    else
      let (significand, exponent) := takeFraction r.significand r.exponent ds
      { r with significand, exponent, rest }.readEnd
  | _ => r.readEnd

/-- Takes digits before the point into the significand while there is room; each of the others
counts as a power of ten. -/
def takeWhole (significand : Nat) : List Char → Nat × Nat
  | [] => (significand, 0)
  | c :: rest =>
    let next := significand * 10 + digitValue c
    if significandLimit ≤ next then (significand, rest.length + 1) else takeWhole next rest

/-- Whether a text goes on with a point or an exponent. -/
def continuesNumber : List Char → Bool
  | c :: _ => c == '.' || c == 'e' || c == 'E'
  | [] => false

/-- The number of digits without point and exponent: an integer where 64 bits with a sign hold it.
Minus zero is not an integer. -/
def ofWhole (negative : Bool) (n : Nat) : Json :=
  let inRange := int64? (if negative then -n else n)
  match if negative && n == 0 then none else inRange with
  | some k => .integer k
  | none => signed negative (.ofInt n)

/-- Reads the digits of a number. A zero stands before no other digit. -/
def readUnsigned? (negative : Bool) (s : List Char) : Option (Json × List Char) :=
  let (ds, rest) := s.span Char.isDigit
  match ds with
  | [] => none
  | '0' :: _ :: _ => none
  | ds =>
    let (significand, exponent) := takeWhole 0 ds
    if exponent = 0 && !continuesNumber rest then some (ofWhole negative significand, rest)
    else NumberReading.readFraction ⟨negative, significand, exponent, rest⟩

def readNumber? (s : List Char) : Option (Json × List Char) :=
  match s with
  | '-' :: rest => readUnsigned? true rest
  | s => readUnsigned? false s

end Verdict.Json
