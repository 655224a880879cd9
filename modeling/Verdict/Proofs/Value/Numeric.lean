import Verdict.Value.Compare

namespace Verdict

theorem natAbs_toInt_lt (n : Int64) : n.toInt.natAbs < twoPow 64 := by
  have hlow := n.le_toInt
  have hhigh := n.toInt_lt
  have hlimit : twoPow 64 = 2 ^ 64 := rfl
  rw [hlimit]
  omega

namespace Double

theorem ofInt_natCast (n : Nat) : ofInt n = OfNat.ofNat n := rfl

theorem isNaN_ofUnits (negative : Bool) (num den : Nat) :
    (ofUnits negative num den).isNaN = false := by
  unfold ofUnits
  split <;> rfl

theorem compare?_swap (x y : Double) : y.compare? x = (x.compare? y).map Ordering.swap := by
  unfold compare?
  rw [Bool.or_comm, ← Int.compare_swap x.rank y.rank]
  split <;> rfl

theorem compare?_self {x : Double} (h : x.isNaN = false) : x.compare? x = some .eq := by
  simp [compare?, h]

end Double

namespace Decimal

theorem compareValue_swap (x y : Decimal) : y.compareValue x = (x.compareValue y).swap :=
  (Int.compare_swap _ _).symm

/-- A decimal holds every integer of 64 bits. -/
theorem ofInt?_toInt (n : Int64) :
    ∃ x, ofInt? n.toInt = some x ∧ x.mantissa = n.toInt ∧ x.scale = 0 := by
  have hfits : n.toInt.natAbs < mantissaLimit ∧ 0 ≤ maxScale :=
    ⟨Nat.lt_trans (natAbs_toInt_lt n) (by decide), Nat.zero_le _⟩
  exact ⟨⟨n.toInt, 0, hfits.1, hfits.2⟩, dif_pos hfits, rfl, rfl⟩

end Decimal

namespace Value

variable {a b : Value}

theorem isNaN_toNumber_integer (n : Int64) : (integer n).toNumber.isNaN = false := by
  rw [toNumber, Double.ofInt, Double.isNaN_ofUnits]

/-- The order of two values as numbers is that of their decimals, or else of the numbers that they
convert to. -/
theorem compareNumbers_eq (a b : Value) : compareNumbers a b =
    if a.toNumber.isNaN || b.toNumber.isNaN then none
    else match a.toDecimal?, b.toDecimal? with
      | some x, some y => some (x.compareValue y)
      | _, _ => a.toNumber.compare? b.toNumber := by
  unfold compareNumbers
  split
  next m n =>
    obtain ⟨x, hx, hxm, hxs⟩ := Decimal.ofInt?_toInt m
    obtain ⟨y, hy, hym, hys⟩ := Decimal.ofInt?_toInt n
    have hone : tenPow 0 = 1 := rfl
    simp only [isNaN_toNumber_integer, toDecimal?, hx, hy, Decimal.compareValue, hxm, hym, hxs,
      hys, hone, Bool.or_self, Bool.false_eq_true, if_false, Int.natCast_one, Int.mul_one]
  next => rfl

theorem compareNumbers_swap (a b : Value) :
    compareNumbers b a = (compareNumbers a b).map Ordering.swap := by
  rw [compareNumbers_eq a b, compareNumbers_eq b a, Bool.or_comm]
  split
  next => rfl
  next =>
    cases a.toDecimal? with
    | none => cases b.toDecimal? <;> exact Double.compare?_swap _ _
    | some x =>
      cases b.toDecimal? with
      | none => exact Double.compare?_swap _ _
      | some y => exact congrArg some (x.compareValue_swap y)

theorem compareNumbers_congr {a' b' : Value} (ha : a'.toNumber = a.toNumber)
    (hda : a'.toDecimal? = a.toDecimal?) (hb : b'.toNumber = b.toNumber)
    (hdb : b'.toDecimal? = b.toDecimal?) : compareNumbers a' b' = compareNumbers a b := by
  rw [compareNumbers_eq, compareNumbers_eq, ha, hda, hb, hdb]

theorem toNumber_scalar (v : Value) : v.scalar.toNumber = v.primitive.toNumber := by
  cases v with
  | boolean b =>
    cases b with
    | false =>
      simp only [scalar, primitive, toNumber, Bool.false_eq_true, if_false, Int64.toInt_zero]
      exact Double.ofInt_natCast 0
    | true =>
      simp only [scalar, primitive, toNumber, if_true, Int64.toInt_one]
      exact Double.ofInt_natCast 1
  | _ => rfl

theorem toDecimal?_scalar (v : Value) : v.scalar.toDecimal? = v.primitive.toDecimal? := by
  cases v with
  | boolean b =>
    cases b
    · exact congrArg Decimal.ofInt? Int64.toInt_zero
    · exact congrArg Decimal.ofInt? Int64.toInt_one
  | _ => rfl

end Value

end Verdict
