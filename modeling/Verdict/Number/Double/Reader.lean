import Verdict.Number.Digits
import Verdict.Number.Double

namespace Verdict

namespace Double

/-- The number nearest to `digits * 10 ^ exponent`. Exponents that take every such value out of
range are settled first, so that no large power is formed. -/
def ofDecimal (negative : Bool) (digits : Nat) (exponent : Int) : Double :=
  if digits = 0 then ofUnits negative 0 1
  else if 400 < exponent then infinite negative
  else if exponent < -((digits.log2 / 3 : Nat) + 400 : Int) then ofUnits negative 0 1
  else if 0 ≤ exponent then ofUnits negative (digits * tenPow exponent.toNat * unitsPerOne) 1
  else ofUnits negative (digits * unitsPerOne) (tenPow (-exponent).toNat)

/-- Adds a digit to an exponent, which stays as it is once it exceeds every use. -/
def exponentDigit (n : Nat) (c : Char) : Nat :=
  if n < 65536 then n * 10 + digitValue c else n

/-- The exponent that ends a text, zero when the text is empty. -/
def readExponent? : List Char → Option Int
  | [] => some 0
  | c :: rest =>
    if c = 'e' ∨ c = 'E' then
      let (negative, digits) := takeSign rest
      if digits.isEmpty || !digits.all Char.isDigit then none
      else
        let n : Int := (digits.foldl exponentDigit 0 : Nat)
        some (if negative then -n else n)
    else none

/-- The digits after a point, and what follows them. -/
def takeFraction : List Char → List Char × List Char
  | '.' :: rest => rest.span Char.isDigit
  | s => ([], s)

/-- Reads digits, point and exponent. -/
def readDecimal? (negative : Bool) (s : List Char) : Option Double :=
  let (whole, rest) := s.span Char.isDigit
  let (fraction, rest) := takeFraction rest
  if whole.isEmpty && fraction.isEmpty then none
  else (readExponent? rest).map fun exponent =>
    ofDecimal negative (readDigits (readDigits 0 whole) fraction) (exponent - fraction.length)

/-- Reads a number from its text: an optional sign, digits with at most one point among them and an
optional exponent, or a word for infinity or NaN in any case of letters. -/
def ofText? (s : List Char) : Option Double :=
  let (negative, body) := takeSign s
  let word := body.map Char.toLower
  if word = ['i', 'n', 'f'] ∨ word = ['i', 'n', 'f', 'i', 'n', 'i', 't', 'y'] then
    some (infinite negative)
  else if word = ['n', 'a', 'n'] then some nan
  else readDecimal? negative body

end Double

end Verdict
