import Verdict.Number.Power

namespace Verdict

def unitsPerOne : Nat := twoPow 1074

/-- The least number of units that is too large for a finite number. -/
def unitLimit : Nat := twoPow 2098

/-- The magnitudes that a number can have: below `unitLimit`, with at most 53 significant bits. -/
def Representable (units : Nat) : Prop :=
  units < unitLimit ∧ units % twoPow (units.log2 - 52) = 0

instance (units : Nat) : Decidable (Representable units) :=
  inferInstanceAs (Decidable (_ ∧ _))

/-- The magnitude of a finite number. -/
structure Magnitude where
  units : Nat
  representable : Representable units
  deriving DecidableEq

/-- A floating-point number of 64 bits. A finite one is a sign and a whole number of units of `2 ^
-1074`. -/
inductive Double where
  | nan
  | infinite (negative : Bool)
  | finite (negative : Bool) (magnitude : Magnitude)
  deriving DecidableEq

/-- The quotient rounded to the nearest whole number, ties to the even one. -/
def roundDiv (num den : Nat) : Nat :=
  let q := num / den
  let r := num % den
  if den < 2 * r ∨ (2 * r = den ∧ q % 2 = 1) then q + 1 else q

/-- The quotient rounded to 53 significant bits, or to a whole number where that is coarser. -/
def roundUnits (num den : Nat) : Nat :=
  let shift := (num / den).log2 - 52
  roundDiv num (den * twoPow shift) * twoPow shift

theorem roundDiv_le (num den : Nat) : roundDiv num den ≤ num / den + 1 := by
  unfold roundDiv
  dsimp only
  split <;> omega

theorem roundUnits_mantissa_le (num den : Nat) :
    roundDiv num (den * twoPow ((num / den).log2 - 52)) ≤ twoPow 53 := by
  have hq : num / den < twoPow ((num / den).log2 - 52) * twoPow 53 := by
    rw [← twoPow_add]
    exact Nat.lt_of_lt_of_le (lt_twoPow_log2 (num / den)) (twoPow_le_twoPow (by omega))
  have hlt : num / (den * twoPow ((num / den).log2 - 52)) < twoPow 53 := by
    rw [← Nat.div_div_eq_div_mul]
    exact Nat.div_lt_of_lt_mul hq
  have hle := roundDiv_le num (den * twoPow ((num / den).log2 - 52))
  omega

theorem mod_log2_eq_zero_of_le {m : Nat} (shift : Nat) (h : m ≤ twoPow 53) :
    m * twoPow shift % twoPow ((m * twoPow shift).log2 - 52) = 0 := by
  apply Nat.mod_eq_zero_of_dvd
  by_cases hm : m = twoPow 53
  · subst hm
    rw [← twoPow_add, log2_twoPow]
    exact twoPow_dvd_twoPow (by omega)
  · by_cases hz : m * twoPow shift = 0
    · rw [hz]
      exact Nat.dvd_zero _
    · have hlt : m * twoPow shift < twoPow (53 + shift) := by
        rw [twoPow_add]
        exact Nat.mul_lt_mul_of_pos_right (Nat.lt_of_le_of_ne h hm) (twoPow_pos shift)
      have hlog := log2_lt_of_lt_twoPow hz hlt
      exact Nat.dvd_trans (twoPow_dvd_twoPow (by omega)) (Nat.dvd_mul_left _ _)

theorem roundUnits_representable {num den : Nat} (h : roundUnits num den < unitLimit) :
    Representable (roundUnits num den) :=
  ⟨h, mod_log2_eq_zero_of_le _ (roundUnits_mantissa_le num den)⟩

namespace Double

/-- The number nearest to `num / den` units, ties to the even one, infinite when that is too large.
-/
def ofUnits (negative : Bool) (num den : Nat) : Double :=
  if h : roundUnits num den < unitLimit then
    finite negative ⟨roundUnits num den, roundUnits_representable h⟩
  else infinite negative

def ofInt (n : Int) : Double :=
  ofUnits (n < 0) (n.natAbs * unitsPerOne) 1

instance (n : Nat) : OfNat Double n := ⟨ofInt n⟩

def isNaN : Double → Bool
  | nan => true
  | _ => false

def isFinite : Double → Bool
  | finite _ _ => true
  | _ => false

def neg : Double → Double
  | nan => nan
  | infinite negative => infinite !negative
  | finite negative m => finite (!negative) m

instance : Neg Double := ⟨neg⟩

/-- A whole number that orders the numbers, the infinities beyond all others. -/
def rank : Double → Int
  | nan => 0
  | infinite negative => if negative then -unitLimit else unitLimit
  | finite negative m => if negative then -m.units else m.units

/-- The order of two numbers. The two zeros are equal, and NaN is not ordered. -/
def compare? (x y : Double) : Option Ordering :=
  if x.isNaN || y.isNaN then none else some (compare x.rank y.rank)

/-- Equality of numbers, under which NaN differs from itself. -/
def eqNumber (x y : Double) : Bool :=
  x.compare? y == some .eq

def add : Double → Double → Double
  | nan, _ | _, nan => nan
  | infinite s, infinite t => if s == t then infinite s else nan
  | infinite s, _ | _, infinite s => infinite s
  | finite s m, finite t n =>
    let sum := (finite s m).rank + (finite t n).rank
    ofUnits (sum < 0 || (sum == 0 && s && t)) sum.natAbs 1

def mul : Double → Double → Double
  | nan, _ | _, nan => nan
  | infinite s, infinite t => infinite (s != t)
  | infinite s, finite t m | finite s m, infinite t =>
    if m.units = 0 then nan else infinite (s != t)
  | finite s m, finite t n => ofUnits (s != t) (m.units * n.units) unitsPerOne

def div : Double → Double → Double
  | nan, _ | _, nan => nan
  | infinite _, infinite _ => nan
  | infinite s, finite t _ => infinite (s != t)
  | finite s _, infinite t => ofUnits (s != t) 0 1
  | finite s m, finite t n =>
    if n.units = 0 then if m.units = 0 then nan else infinite (s != t)
    else ofUnits (s != t) (m.units * unitsPerOne) n.units

instance : Add Double := ⟨add⟩
instance : Mul Double := ⟨mul⟩
instance : Div Double := ⟨div⟩

/-- The integer of a finite number without its fraction. -/
def truncate? : Double → Option Int
  | finite negative m =>
    let n : Int := (m.units / unitsPerOne : Nat)
    some (if negative then -n else n)
  | _ => none

/-- The number with this representation as 64 bits: sign, 11 bits of exponent, 52 of fraction. -/
def ofBits (bits : Nat) : Double :=
  let negative := bits / twoPow 63 % 2 == 1
  let exponent := bits / twoPow 52 % twoPow 11
  let fraction := bits % twoPow 52
  if exponent = 2047 then if fraction = 0 then infinite negative else nan
  else if exponent = 0 then ofUnits negative fraction 1
  else ofUnits negative ((twoPow 52 + fraction) * twoPow (exponent - 1)) 1

/-- The representation of a number as 64 bits. -/
def toBits : Double → Nat
  | nan => 0x7ff8000000000000
  | infinite negative => signBit negative + 2047 * twoPow 52
  | finite negative m =>
    if m.units < twoPow 52 then signBit negative + m.units
    else
      let shift := m.units.log2 - 52
      signBit negative + (shift + 1) * twoPow 52 + (m.units / twoPow shift - twoPow 52)
where
  signBit (negative : Bool) : Nat := if negative then twoPow 63 else 0

end Double

end Verdict
