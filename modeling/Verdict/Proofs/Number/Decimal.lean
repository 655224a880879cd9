import Mathlib.Algebra.Order.Field.Basic
import Mathlib.Algebra.Order.Ring.Rat
import Mathlib.Tactic.Ring
import Verdict.Proofs.Number.Rounding

namespace Verdict

theorem tenPow_pos (n : Nat) : 0 < tenPow n :=
  Nat.pow_pos (by decide)

theorem tenPow_zero : tenPow 0 = 1 :=
  rfl

theorem tenPow_add (m n : Nat) : tenPow (m + n) = tenPow m * tenPow n :=
  Nat.pow_add 10 m n

theorem tenPow_succ (n : Nat) : tenPow (n + 1) = tenPow n * 10 :=
  rfl

namespace Decimal

/-- The rational number that a decimal is. -/
def value (x : Decimal) : ℚ := x.mantissa / (tenPow x.scale : ℕ)

theorem value_le_value_iff {x y : Decimal} :
    x.value ≤ y.value ↔ x.mantissa * tenPow y.scale ≤ y.mantissa * tenPow x.scale := by
  have hx : (0 : ℚ) < (tenPow x.scale : ℕ) := Nat.cast_pos.mpr (tenPow_pos _)
  have hy : (0 : ℚ) < (tenPow y.scale : ℕ) := Nat.cast_pos.mpr (tenPow_pos _)
  rw [value, value, div_le_div_iff₀ hx hy]
  exact_mod_cast Iff.rfl

theorem isLE_compareValue_iff {x y : Decimal} :
    (x.compareValue y).isLE = true ↔ x.value ≤ y.value := by
  rw [value_le_value_iff, compareValue, Int.isLE_compare]

/-- Decimals are compared as the numbers that they are. -/
theorem compareValue_eq_compare (x y : Decimal) : x.compareValue y = compare x.value y.value := by
  have hlt : x.value < y.value ↔ x.mantissa * tenPow y.scale < y.mantissa * tenPow x.scale :=
    lt_iff_lt_of_le_iff_le value_le_value_iff
  have heq : x.value = y.value ↔ x.mantissa * tenPow y.scale = y.mantissa * tenPow x.scale := by
    rw [le_antisymm_iff, value_le_value_iff, value_le_value_iff, ← le_antisymm_iff]
  rw [compareValue, LinearOrder.compare_eq_compareOfLessAndEq,
    LinearOrder.compare_eq_compareOfLessAndEq]
  simp only [compareOfLessAndEq, hlt, heq]

theorem compareValue_eq_eq_iff {x y : Decimal} :
    x.compareValue y = .eq ↔ x.value = y.value := by
  rw [compareValue_eq_compare, compare_eq_iff_eq]

/-- A decimal is within a bound if its mantissa is, at its scale. -/
theorem abs_value_le_iff {x : Decimal} {n : Nat} :
    |x.value| ≤ n ↔ x.mantissa.natAbs ≤ n * tenPow x.scale := by
  have hx : (0 : ℚ) < (tenPow x.scale : ℕ) := Nat.cast_pos.mpr (tenPow_pos _)
  rw [value, abs_div, abs_of_pos hx, div_le_iff₀ hx, ← Int.cast_abs, Int.abs_eq_natAbs]
  exact_mod_cast Iff.rfl

/-- The greatest floating-point number below the limit of the mantissas. -/
def greatestDouble : Nat := mantissaLimit - twoPow 43

/-- The least number of units for which there is no room in a decimal. -/
def unitBound : Nat := mantissaLimit * unitsPerOne

theorem unitsPerOne_pos : 0 < unitsPerOne := twoPow_pos 1074

theorem unitBound_eq : unitBound = twoPow 1170 := by
  rw [unitBound, mantissaLimit, unitsPerOne, ← twoPow_add]

theorem unitBound_le_unitLimit : unitBound ≤ unitLimit := by
  rw [unitBound_eq]
  exact twoPow_le_twoPow (by decide)

theorem greatestDouble_lt_unitBound : greatestDouble * unitsPerOne < unitBound :=
  Nat.mul_lt_mul_of_pos_right (by decide) unitsPerOne_pos

/-- An integer of few bits has room in a decimal. -/
theorem natAbs_rank_ofInt_lt {i : Int} {k : Nat} (hk : k < 96) (h : i.natAbs < twoPow k) :
    (Double.ofInt i).rank.natAbs < unitBound := by
  rw [unitBound_eq]
  exact Nat.lt_of_le_of_lt (Double.natAbs_rank_ofInt_le (by omega) h)
    (twoPow_lt_twoPow (by omega))

section Binary

variable {b c n s : Nat} {e : Int}

/-- Numbers below one are cleared of their factor of a half one by one: `k` of them are halved away,
and each of the others makes room for one more digit. -/
theorem clearNegative_bounds (n b : Nat) (e : Int) :
    ∃ k ≤ n, (clearNegative n b e).2 = e + k ∧ (clearNegative n b e).1 ≤ b * tenPow (n - k) ∧
      (b < mantissaLimit → (clearNegative n b e).1 < mantissaLimit) := by
  induction n generalizing b e with
  | zero =>
    exact ⟨0, Nat.le_refl 0, by simp [clearNegative], Nat.le_mul_of_pos_right b (tenPow_pos 0), id⟩
  | succ n ih =>
    have halved : ∃ k ≤ n + 1, (clearNegative n (b / 2) (e + 1)).2 = e + k ∧
        (clearNegative n (b / 2) (e + 1)).1 ≤ b * tenPow (n + 1 - k) ∧
        (b < mantissaLimit → (clearNegative n (b / 2) (e + 1)).1 < mantissaLimit) := by
      obtain ⟨k, hk, hexponent, hbits, hroom⟩ := ih (b / 2) (e + 1)
      refine ⟨k + 1, by omega, by push_cast; omega, ?_, fun hb => hroom (by omega)⟩
      rw [Nat.add_sub_add_right]
      exact Nat.le_trans hbits (Nat.mul_le_mul_right _ (Nat.div_le_self b 2))
    unfold clearNegative
    split
    next => exact halved
    next =>
      split
      next hfive =>
        obtain ⟨k, hk, hexponent, hbits, hroom⟩ := ih (b * 5) e
        refine ⟨k, by omega, hexponent, Nat.le_trans hbits ?_, fun _ => hroom hfive⟩
        rw [Nat.sub_add_comm hk, tenPow_succ, Nat.mul_assoc, Nat.mul_comm (tenPow _)]
        exact Nat.mul_le_mul_left b (Nat.mul_le_mul_right _ (by decide))
      next => exact halved

/-- Numbers above one are doubled out to the end, or there is no room for them. -/
theorem clearPositive_eq (hb : b < mantissaLimit) :
    clearPositive n b n =
      if b * twoPow n < mantissaLimit then some (b * twoPow n, 0) else none := by
  induction n generalizing b with
  | zero =>
    have hone : b * twoPow 0 = b := Nat.mul_one b
    rw [hone, if_pos hb]
    rfl
  | succ n ih =>
    have hdouble : b * twoPow (n + 1) = b * 2 * twoPow n := by
      rw [Nat.add_comm, twoPow_add, ← Nat.mul_assoc]
      rfl
    have hlimit : mantissaLimit / 2 * 2 = mantissaLimit := rfl
    unfold clearPositive
    split
    next hroom =>
      have hexponent : ((n + 1 : Nat) : Int) - 1 = n := by omega
      rw [hexponent, ih (by omega), hdouble]
    next hroom =>
      have hfull : ¬ b * twoPow (n + 1) < mantissaLimit := by
        have := Nat.le_mul_of_pos_right (b * 2) (twoPow_pos n)
        omega
      rw [if_pos (by omega), if_neg hfull]

theorem dropDigit_le (h : b ≤ c * 10) : dropDigit b ≤ c := by
  unfold dropDigit
  split <;> omega

theorem dropExcess_bounds (h : b ≤ c * tenPow (n + maxScale)) :
    (dropExcess n b).1 ≤ c * tenPow (dropExcess n b).2 ∧ (dropExcess n b).2 ≤ maxScale ∧
      (dropExcess n b).1 ≤ b := by
  induction n generalizing b with
  | zero => exact ⟨by simpa [dropExcess] using h, Nat.le_refl _, Nat.le_refl _⟩
  | succ n ih =>
    unfold dropExcess
    split
    next => exact ⟨Nat.zero_le _, Nat.zero_le _, Nat.zero_le _⟩
    next =>
      rw [Nat.add_right_comm, tenPow_succ, ← Nat.mul_assoc] at h
      obtain ⟨hvalue, hscale, hle⟩ := ih (dropDigit_le h)
      exact ⟨hvalue, hscale, Nat.le_trans hle (dropDigit_le (by omega))⟩

theorem dropNoise_bounds (h : b ≤ c * tenPow s) :
    (dropNoise s b).1 ≤ c * tenPow (dropNoise s b).2 ∧ (dropNoise s b).2 ≤ s ∧
      (dropNoise s b).1 ≤ b := by
  induction s generalizing b with
  | zero => exact ⟨h, Nat.le_refl _, Nat.le_refl _⟩
  | succ s ih =>
    unfold dropNoise
    split
    next =>
      rw [tenPow_succ, ← Nat.mul_assoc] at h
      obtain ⟨hvalue, hscale, hle⟩ := ih (dropDigit_le h)
      exact ⟨hvalue, by omega, Nat.le_trans hle (dropDigit_le (by omega))⟩
    next => exact ⟨h, Nat.le_refl _, Nat.le_refl _⟩

theorem dropZeros_bounds (h : b ≤ c * tenPow s) :
    (dropZeros s b).1 ≤ c * tenPow (dropZeros s b).2 ∧ (dropZeros s b).2 ≤ s ∧
      (dropZeros s b).1 ≤ b := by
  induction s generalizing b with
  | zero => exact ⟨h, Nat.le_refl _, Nat.le_refl _⟩
  | succ s ih =>
    unfold dropZeros
    split
    next =>
      rw [tenPow_succ, ← Nat.mul_assoc] at h
      obtain ⟨hvalue, hscale, hle⟩ := ih (b := b / 10) (by omega)
      exact ⟨hvalue, by omega, by omega⟩
    next => exact ⟨h, Nat.le_refl _, Nat.le_refl _⟩

/-- A number with a fraction, or one of few bits, has a decimal that is not above the number without
the fraction. -/
theorem ofBinary?_fraction (hb : b < mantissaLimit) (n : Nat) :
    ∃ m s, ofBinary? b (-n) = some (m, s) ∧ m ≤ b * tenPow s ∧ s ≤ maxScale ∧
      m < mantissaLimit := by
  by_cases hzero : b = 0
  · exact ⟨0, 0, by simp [ofBinary?, hzero], Nat.zero_le _, Nat.zero_le _, by decide⟩
  obtain ⟨k, hk, hexponent, hbits, hroom⟩ := clearNegative_bounds n b (-n)
  generalize hcleared : clearNegative n b (-n) = cleared at hexponent hbits hroom
  obtain ⟨bits, exponent⟩ := cleared
  have hplaces : (-exponent).toNat = n - k := by
    dsimp only at hexponent
    omega
  have hnone : ¬ 0 < exponent := by
    dsimp only at hexponent
    omega
  -- The same two facts hold after every digit that is dropped.
  have hexcess : ∃ m s, (if n - k ≤ maxScale then (bits, n - k)
      else dropExcess (n - k - maxScale) bits) = (m, s) ∧ m ≤ b * tenPow s ∧ s ≤ maxScale ∧
        m < mantissaLimit := by
    split
    next hscale => exact ⟨_, _, rfl, hbits, hscale, hroom hb⟩
    next hscale =>
      have hsum : n - k - maxScale + maxScale = n - k := by omega
      obtain ⟨hvalue, hle, hless⟩ :=
        dropExcess_bounds (c := b) (n := n - k - maxScale) (hsum ▸ hbits)
      exact ⟨_, _, rfl, hvalue, hle, Nat.lt_of_le_of_lt hless (hroom hb)⟩
  obtain ⟨m, s, hdropped, hvalue, hscale, hlimit⟩ := hexcess
  obtain ⟨hvalue', hscale', hle'⟩ := dropNoise_bounds hvalue
  obtain ⟨hvalue'', hscale'', hle''⟩ := dropZeros_bounds hvalue'
  refine ⟨_, _, ?_, hvalue'', by omega, by omega⟩
  simp only [ofBinary?, hzero, if_false, Int.neg_nonpos_iff, Int.natCast_nonneg, if_true,
    Int.neg_neg, Int.toNat_natCast, hcleared, Option.bind_eq_bind, Option.bind_some, hnone,
    hplaces, hdropped]
  rfl

/-- A whole number of many bits has itself as its decimal, if there is room. -/
theorem ofBinary?_whole (hb : b < mantissaLimit) (hn : 0 < n) (hzero : b ≠ 0) :
    ofBinary? b n =
      if b * twoPow n < mantissaLimit then some (b * twoPow n, 0) else none := by
  have hexponent : ¬ (n : Int) ≤ 0 := by omega
  simp only [ofBinary?, hzero, if_false, hexponent, Int.toNat_natCast, clearPositive_eq hb]
  split
  next => rfl
  next => rfl

end Binary

theorem ofParts?_signed (negative : Bool) {mantissa scale : Nat} (hm : mantissa < mantissaLimit)
    (hs : scale ≤ maxScale) :
    ∃ x, ofParts? (if negative then -(mantissa : Int) else mantissa) scale = some x ∧
      x.mantissa.natAbs = mantissa ∧ x.scale = scale := by
  have habs : (if negative then -(mantissa : Int) else mantissa).natAbs = mantissa := by
    cases negative <;> simp
  exact ⟨_, dif_pos ⟨by rwa [habs], hs⟩, habs, rfl⟩

section Double

variable (negative : Bool) (m : Magnitude)

/-- The bits of a magnitude, without zeros at the end of a long one. -/
theorem exists_bits : ∃ bits, m.units / twoPow (m.units.log2 - 52) = bits ∧
    m.units = bits * twoPow (m.units.log2 - 52) ∧ bits < twoPow 53 ∧
    (52 < m.units.log2 → twoPow 52 ≤ bits) := by
  refine ⟨_, rfl, ?_, ?_, fun hlong => ?_⟩
  · exact (Nat.div_mul_cancel (Nat.dvd_of_mod_eq_zero m.representable.2)).symm
  · refine Nat.div_lt_of_lt_mul ?_
    rw [← twoPow_add]
    exact Nat.lt_of_lt_of_le (lt_twoPow_log2 m.units) (twoPow_le_twoPow (by omega))
  · have hzero : m.units ≠ 0 := fun h => by simp [h] at hlong
    rw [Nat.le_div_iff_mul_le (twoPow_pos _), ← twoPow_add]
    exact Nat.le_trans (twoPow_le_twoPow (by omega)) (Nat.log2_self_le hzero)

/-- A number that is no multiple of two, or has a fraction, has a decimal. -/
theorem ofDouble?_short (h : m.units.log2 - 52 ≤ 1074) :
    m.units < unitBound ∧
      ∃ x, ofDouble? (.finite negative m) = some x ∧ |x.value| ≤ greatestDouble := by
  obtain ⟨bits, hdiv, hunits, hbits, _⟩ := exists_bits m
  have hlimit : bits < mantissaLimit := Nat.lt_trans hbits (twoPow_lt_twoPow (by decide))
  constructor
  · calc m.units = bits * twoPow (m.units.log2 - 52) := hunits
      _ ≤ bits * unitsPerOne := Nat.mul_le_mul_left _ (twoPow_le_twoPow h)
      _ < unitBound := Nat.mul_lt_mul_of_pos_right hlimit unitsPerOne_pos
  · obtain ⟨mantissa, scale, hbinary, hvalue, hscale, hroom⟩ :=
      ofBinary?_fraction hlimit (1074 - (m.units.log2 - 52))
    obtain ⟨x, hx, hxm, hxs⟩ := ofParts?_signed negative hroom hscale
    have hexponent : ((m.units.log2 - 52 : Nat) : Int) - 1074 =
        -((1074 - (m.units.log2 - 52) : Nat) : Int) := by omega
    refine ⟨x, ?_, ?_⟩
    · simp only [ofDouble?, hdiv, hexponent, hbinary]
      exact hx
    · rw [abs_value_le_iff, hxm, hxs]
      refine Nat.le_trans hvalue (Nat.mul_le_mul_right _ (Nat.le_trans (Nat.le_of_lt hbits) ?_))
      decide

/-- Any other number is an integer, and has itself as its decimal, if there is room. -/
theorem ofDouble?_long (h : 1074 < m.units.log2 - 52) :
    ∃ n, m.units = n * unitsPerOne ∧ (n < mantissaLimit → n ≤ greatestDouble) ∧
      ofDouble? (.finite negative m) =
        if n < mantissaLimit then ofParts? (if negative then -(n : Int) else n) 0 else none := by
  obtain ⟨bits, hdiv, hunits, hbits, hlong⟩ := exists_bits m
  obtain ⟨k, hk⟩ : ∃ k, m.units.log2 - 52 = k + 1074 := ⟨m.units.log2 - 52 - 1074, by omega⟩
  have hlow : twoPow 52 ≤ bits := hlong (by omega)
  have hlimit : bits < mantissaLimit := Nat.lt_trans hbits (twoPow_lt_twoPow (by decide))
  refine ⟨bits * twoPow k, ?_, fun hroom => ?_, ?_⟩
  · rw [hunits, hk, twoPow_add, ← Nat.mul_assoc]
    rfl
  · have hfew : k ≤ 43 := by
      by_contra hmany
      refine absurd hroom (Nat.not_lt.mpr ?_)
      calc mantissaLimit ≤ twoPow (52 + k) := twoPow_le_twoPow (by omega)
        _ = twoPow 52 * twoPow k := twoPow_add 52 k
        _ ≤ bits * twoPow k := Nat.mul_le_mul_right _ hlow
    calc bits * twoPow k
        ≤ (twoPow 53 - 1) * twoPow 43 :=
          Nat.mul_le_mul (Nat.le_sub_one_of_lt hbits) (twoPow_le_twoPow hfew)
      _ = greatestDouble := by decide
  · have hexponent : ((k + 1074 : Nat) : Int) - 1074 = k := by omega
    have hpos : bits ≠ 0 := Nat.ne_of_gt (Nat.lt_of_lt_of_le (twoPow_pos 52) hlow)
    rw [hk] at hdiv
    simp only [ofDouble?, hk, hdiv, hexponent, ofBinary?_whole hlimit (show 0 < k by omega) hpos]
    split
    next => rfl
    next => rfl

variable {m}

theorem ofDouble?_of_lt (h : m.units < unitBound) :
    ∃ x, ofDouble? (.finite negative m) = some x ∧ |x.value| ≤ greatestDouble := by
  by_cases hshort : m.units.log2 - 52 ≤ 1074
  · exact (ofDouble?_short negative m hshort).2
  · obtain ⟨n, hunits, hgreatest, hdouble⟩ := ofDouble?_long negative m (by omega)
    rw [hunits] at h
    have hroom : n < mantissaLimit := Nat.lt_of_mul_lt_mul_right h
    obtain ⟨x, hx, hxm, hxs⟩ := ofParts?_signed negative hroom (Nat.zero_le maxScale)
    refine ⟨x, by rw [hdouble, if_pos hroom, hx], ?_⟩
    rw [abs_value_le_iff, hxm, hxs]
    exact Nat.le_trans (hgreatest hroom) (Nat.le_mul_of_pos_right _ (tenPow_pos 0))

theorem ofDouble?_of_le (h : unitBound ≤ m.units) :
    ofDouble? (.finite negative m) = none := by
  have hlong : 1074 < m.units.log2 - 52 := by
    by_contra hshort
    exact absurd (ofDouble?_short negative m (by omega)).1 (Nat.not_lt.mpr h)
  obtain ⟨n, hunits, _, hdouble⟩ := ofDouble?_long negative m hlong
  rw [hunits] at h
  have hfull : ¬ n < mantissaLimit :=
    Nat.not_lt.mpr (Nat.le_of_mul_le_mul_right h unitsPerOne_pos)
  rw [hdouble, if_neg hfull]

end Double

end Decimal

end Verdict
