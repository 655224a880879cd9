import Verdict.Number.Double.Reader

namespace Verdict

/-- The least mantissa that is too large. -/
def mantissaLimit : Nat := twoPow 96

def maxScale : Nat := 28

/-- The number `mantissa / 10 ^ scale`. It holds the decimal texts and the integers that a rule
compares exactly, where a binary number would round them. -/
structure Decimal where
  mantissa : Int
  scale : Nat
  mantissa_lt : mantissa.natAbs < mantissaLimit
  scale_le : scale ≤ maxScale
  deriving DecidableEq

namespace Decimal

/-- The number with this mantissa and scale, if they fit. -/
def ofParts? (mantissa : Int) (scale : Nat) : Option Decimal :=
  if h : mantissa.natAbs < mantissaLimit ∧ scale ≤ maxScale then
    some ⟨mantissa, scale, h.1, h.2⟩
  else none

/-- The order of two numbers by their values. -/
def compareValue (x y : Decimal) : Ordering :=
  compare (x.mantissa * tenPow y.scale) (y.mantissa * tenPow x.scale)

/-- The quotient by a power of ten, a half rounded up. -/
def roundTo (n : Nat) (dropped : Nat) : Nat :=
  (n + tenPow dropped / 2) / tenPow dropped

/-- The text read so far: the mantissa, the number of fraction digits, and whether a point and a
digit have been seen. -/
structure Reading where
  mantissa : Nat
  scale : Nat
  point : Bool
  digit : Bool

/-- Ends the reading before a digit for which there is no room, rounding a half up. -/
def Reading.round (r : Reading) (next : Nat) : Option (Nat × Nat) :=
  if next < 5 then some (r.mantissa, r.scale)
  else if r.mantissa + 1 < mantissaLimit then some (r.mantissa + 1, r.scale)
  else if r.scale = 0 then none
  else some ((r.mantissa + 5) / 10, r.scale - 1)

/-- Reads digits, with at most one point among them and `_` after a digit, and gives mantissa and
scale. Where the digits after the point outgrow the number, the rest is not read. -/
def readDigits? (r : Reading) : List Char → Option (Nat × Nat)
  | [] => if r.digit then some (r.mantissa, r.scale) else none
  | c :: rest =>
    match digit? 10 c with
    | some d =>
      let next := r.mantissa * 10 + d
      if r.point && (r.scale = maxScale || mantissaLimit ≤ next) then r.round d
      else if mantissaLimit ≤ next then none
      else readDigits? ⟨next, if r.point then r.scale + 1 else 0, r.point, true⟩ rest
    | none =>
      if c = '.' ∧ !r.point then readDigits? { r with point := true } rest
      else if c = '_' ∧ r.digit then
        if r.scale = maxScale then some (r.mantissa, r.scale) else readDigits? r rest
      else none

/-- Moves the point of a number by an exponent of at most 28 in magnitude. A number that comes to
have more than 28 fraction digits is rounded first; one that outgrows its mantissa is refused. -/
def shift? (mantissa scale : Nat) (negative : Bool) (exponent : Nat) : Option (Nat × Nat) :=
  if maxScale < exponent then none
  else if negative then
    let kept := min scale (maxScale - exponent)
    some (roundTo mantissa (scale - kept), kept + exponent)
  else if exponent ≤ scale then some (mantissa, scale - exponent)
  else some (mantissa * tenPow (exponent - scale), 0)

/-- The exponent of a text: its sign and its magnitude. -/
def readExponent? (s : List Char) : Option (Bool × Nat) :=
  let (negative, digits) := match s with
    | '-' :: rest => (true, (takeSign rest).2)
    | s => (false, (takeSign s).2)
  if digits.isEmpty || !digits.all Char.isDigit then none
  else some (negative, Verdict.readDigits 0 digits)

/-- Reads the text of a number without its sign. -/
def readUnsigned? (s : List Char) : Option (Nat × Nat) :=
  let (base, exponent) := s.span fun c => c != 'e' && c != 'E'
  match readDigits? ⟨0, 0, false, false⟩ base, exponent with
  | some (mantissa, scale), [] => some (mantissa, scale)
  | some (mantissa, scale), _ :: exponent =>
    (readExponent? exponent).bind fun (negative, n) => shift? mantissa scale negative n
  | none, _ => none

def ofText? (s : List Char) : Option Decimal :=
  let (negative, body) := takeSign s
  (readUnsigned? body).bind fun (mantissa, scale) =>
    ofParts? (if negative then -mantissa else mantissa) scale

/-- Turns `bits * 2 ^ -n * 10 ^ exponent` into a decimal: a factor of two is halved away while there
is one; otherwise the number is multiplied by five and divided by ten while there is room, and then
a bit is dropped. -/
def clearNegative : Nat → Nat → Int → Nat × Int
  | 0, bits, exponent => (bits, exponent)
  | n + 1, bits, exponent =>
    if bits % 2 = 0 then clearNegative n (bits / 2) (exponent + 1)
    else if bits * 5 < mantissaLimit then clearNegative n (bits * 5) exponent
    else clearNegative n (bits / 2) (exponent + 1)

/-- Turns `bits * 2 ^ n`, of which `exponent` counts the factors not yet taken in, into a decimal,
dropping digits while there is no room. -/
def clearPositive : Nat → Nat → Int → Option (Nat × Int)
  | 0, bits, exponent => some (bits, exponent)
  | n + 1, bits, exponent =>
    if bits < mantissaLimit / 2 then clearPositive n (bits * 2) (exponent - 1)
    else if (n + 1 : Int) < exponent * 2 then none
    else clearPositive n (bits / 5) exponent

/-- Takes in `n` factors of ten. -/
def scaleUp : Nat → Nat → Option Nat
  | 0, bits => some bits
  | n + 1, bits => if bits * 10 < mantissaLimit then scaleUp n (bits * 10) else none

/-- Drops the last digit, a half rounded up. -/
def dropDigit (bits : Nat) : Nat :=
  if 5 ≤ bits % 10 then bits / 10 + 1 else bits / 10

/-- Drops `n` digits, each a half rounded up, of a number with `n + 28` fraction digits. Once only a
zero is left the number has no fraction. -/
def dropExcess : Nat → Nat → Nat × Nat
  | 0, bits => (bits, maxScale)
  | n + 1, bits => if bits / 10 = 0 then (0, 0) else dropExcess n (dropDigit bits)

/-- Drops fraction digits while the mantissa has more than 52 bits. -/
def dropNoise : Nat → Nat → Nat × Nat
  | 0, bits => (bits, 0)
  | scale + 1, bits =>
    if twoPow 52 ≤ bits then dropNoise scale (dropDigit bits) else (bits, scale + 1)

/-- Drops zeros at the end of the fraction. -/
def dropZeros : Nat → Nat → Nat × Nat
  | 0, bits => (bits, 0)
  | scale + 1, bits =>
    if bits % 10 = 0 then dropZeros scale (bits / 10) else (bits, scale + 1)

/-- The decimal of the finite number `bits * 2 ^ exponent`. -/
def ofBinary? (bits : Nat) (exponent : Int) : Option (Nat × Nat) := do
  if bits = 0 then return (0, 0)
  let (bits, exponent) ←
    if exponent ≤ 0 then some (clearNegative (-exponent).toNat bits exponent)
    else clearPositive exponent.toNat bits exponent
  if 0 < exponent then return (← scaleUp exponent.toNat bits, 0)
  let places := (-exponent).toNat
  let (bits, places) :=
    if places ≤ maxScale then (bits, places) else dropExcess (places - maxScale) bits
  let (bits, places) := dropNoise places bits
  return dropZeros places bits

/-- The decimal nearest to a floating-point number, kept to the digits that its 53 bits can hold. -/
def ofDouble? : Double → Option Decimal
  | .nan => none
  | .infinite _ => none
  | .finite negative m =>
    let shift := m.units.log2 - 52
    (ofBinary? (m.units / twoPow shift) (shift - 1074)).bind fun (mantissa, scale) =>
      ofParts? (if negative then -mantissa else mantissa) scale

def ofInt? (n : Int) : Option Decimal :=
  ofParts? n 0

end Decimal

end Verdict
