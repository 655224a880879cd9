import Mathlib.Tactic.Ring
import Verdict.Proofs.Number.Numeral

namespace Verdict

variable {a b c d : Nat}

theorem div_le_roundDiv (a b : Nat) : a / b ≤ roundDiv a b := by
  unfold roundDiv
  dsimp only
  split <;> omega

/-- Quotients are compared by their products across. -/
theorem div_le_div_of_cross (hb : 0 < b) (hd : 0 < d) (h : a * d ≤ c * b) : a / b ≤ c / d := by
  rw [Nat.le_div_iff_mul_le hd]
  refine Nat.le_of_mul_le_mul_right ?_ hb
  calc a / b * d * b = a / b * b * d := Nat.mul_right_comm _ _ _
    _ ≤ a * d := Nat.mul_le_mul_right d (Nat.div_mul_le_self a b)
    _ ≤ c * b := h

theorem roundDiv_mono (hb : 0 < b) (hd : 0 < d) (h : a * d ≤ c * b) :
    roundDiv a b ≤ roundDiv c d := by
  have hquotient := div_le_div_of_cross hb hd h
  by_cases hlt : a / b < c / d
  · exact Nat.le_trans (roundDiv_le a b) (Nat.le_trans hlt (div_le_roundDiv c d))
  have hsame : a / b = c / d := Nat.le_antisymm hquotient (Nat.not_lt.mp hlt)
  -- Of equal quotients, the remainders are in order as parts of their divisors.
  have hrest : a % b * d ≤ c % d * b := by
    have ha : b * (a / b) * d + a % b * d = a * d := by rw [← Nat.add_mul, Nat.div_add_mod]
    have hc : d * (c / d) * b + c % d * b = c * b := by rw [← Nat.add_mul, Nat.div_add_mod]
    have hwhole : b * (a / b) * d = d * (c / d) * b := by rw [hsame]; ring
    omega
  have hdouble : 2 * (a % b) * d ≤ 2 * (c % d) * b := by
    rw [Nat.mul_assoc, Nat.mul_assoc]
    exact Nat.mul_le_mul_left 2 hrest
  have hstrict : b < 2 * (a % b) → d < 2 * (c % d) := by
    intro hup
    refine Nat.lt_of_mul_lt_mul_right (a := b) ?_
    calc d * b = b * d := Nat.mul_comm d b
      _ < 2 * (a % b) * d := Nat.mul_lt_mul_of_pos_right hup hd
      _ ≤ 2 * (c % d) * b := hdouble
  have htie : 2 * (a % b) = b → d ≤ 2 * (c % d) := by
    intro htie
    refine Nat.le_of_mul_le_mul_right (c := b) ?_ hb
    calc d * b = 2 * (a % b) * d := by rw [htie, Nat.mul_comm]
      _ ≤ 2 * (c % d) * b := hdouble
  unfold roundDiv
  dsimp only
  rw [hsame] at *
  split
  next hup =>
    have : d < 2 * (c % d) ∨ 2 * (c % d) = d ∧ c / d % 2 = 1 := by
      rcases hup with hup | ⟨hup, hodd⟩
      · exact .inl (hstrict hup)
      · have := htie hup
        omega
    rw [if_pos this]
  next => split <;> omega

theorem log2_mono (h : a ≤ b) : a.log2 ≤ b.log2 := by
  by_cases ha : a = 0
  · simp [ha]
  · exact (Nat.le_log2 (by omega)).mpr (Nat.le_trans (Nat.log2_self_le ha) h)

/-- Where more than 53 bits have to be dropped, the rounded number has 53 bits. -/
theorem le_roundUnits (h : 52 < (a / b).log2) : twoPow (a / b).log2 ≤ roundUnits a b := by
  have hlog : (a / b).log2 = 52 + ((a / b).log2 - 52) := by omega
  have hquotient : twoPow (a / b).log2 ≤ a / b := Nat.log2_self_le fun h0 => by simp [h0] at h
  have hpart : twoPow 52 ≤ roundDiv a (b * twoPow ((a / b).log2 - 52)) := by
    refine Nat.le_trans ?_ (div_le_roundDiv _ _)
    rw [← Nat.div_div_eq_div_mul, Nat.le_div_iff_mul_le (twoPow_pos _), ← twoPow_add, ← hlog]
    exact hquotient
  calc twoPow (a / b).log2 = twoPow 52 * twoPow ((a / b).log2 - 52) := by rw [← twoPow_add, ← hlog]
    _ ≤ roundUnits a b := Nat.mul_le_mul_right _ hpart

/-- Rounding keeps the order of quotients. -/
theorem roundUnits_mono (hb : 0 < b) (hd : 0 < d) (h : a * d ≤ c * b) :
    roundUnits a b ≤ roundUnits c d := by
  have hlog : (a / b).log2 ≤ (c / d).log2 := log2_mono (div_le_div_of_cross hb hd h)
  by_cases hsame : (a / b).log2 - 52 = (c / d).log2 - 52
  · unfold roundUnits
    dsimp only
    rw [hsame]
    have hpos := twoPow_pos ((c / d).log2 - 52)
    refine Nat.mul_le_mul_right _ (roundDiv_mono (Nat.mul_pos hb hpos) (Nat.mul_pos hd hpos) ?_)
    calc a * (d * twoPow ((c / d).log2 - 52)) = a * d * twoPow ((c / d).log2 - 52) := by ring
      _ ≤ c * b * twoPow ((c / d).log2 - 52) := Nat.mul_le_mul_right _ h
      _ = c * (b * twoPow ((c / d).log2 - 52)) := by ring
  · calc roundUnits a b
        ≤ twoPow 53 * twoPow ((a / b).log2 - 52) :=
          Nat.mul_le_mul_right _ (roundUnits_mantissa_le a b)
      _ = twoPow (53 + ((a / b).log2 - 52)) := (twoPow_add _ _).symm
      _ ≤ twoPow (c / d).log2 := twoPow_le_twoPow (by omega)
      _ ≤ roundUnits c d := le_roundUnits (by omega)

theorem roundDiv_mul (hb : 0 < b) (a : Nat) : roundDiv (a * b) b = a := by
  have hquotient : a * b / b = a := Nat.mul_div_cancel a hb
  have hrest : a * b % b = 0 := Nat.mul_mod_left a b
  unfold roundDiv
  dsimp only
  rw [hquotient, hrest, if_neg (by omega)]

/-- Rounding changes nothing that has no more than 53 significant bits. -/
theorem roundUnits_one (h : a % twoPow (a.log2 - 52) = 0) : roundUnits a 1 = a := by
  unfold roundUnits
  dsimp only
  rw [Nat.div_one, Nat.one_mul]
  generalize a.log2 - 52 = shift at h ⊢
  obtain ⟨q, rfl⟩ := Nat.dvd_of_mod_eq_zero h
  rw [Nat.mul_comm (twoPow shift) q, roundDiv_mul (twoPow_pos shift)]

namespace Double

variable {negative : Bool} {num den n : Nat} {i : Int}

theorem rank_infinite (negative : Bool) :
    (infinite negative).rank = if negative then -(unitLimit : Int) else unitLimit :=
  rfl

theorem rank_finite (negative : Bool) (m : Magnitude) :
    (finite negative m).rank = if negative then -(m.units : Int) else m.units :=
  rfl

theorem natAbs_rank_infinite (negative : Bool) : (infinite negative).rank.natAbs = unitLimit := by
  rw [rank_infinite]
  split
  · rw [Int.natAbs_neg, Int.natAbs_natCast]
  · exact Int.natAbs_natCast unitLimit

theorem natAbs_rank_finite (negative : Bool) (m : Magnitude) :
    (finite negative m).rank.natAbs = m.units := by
  rw [rank_finite]
  split
  · rw [Int.natAbs_neg, Int.natAbs_natCast]
  · exact Int.natAbs_natCast m.units

theorem natAbs_rank_ofUnits_le (h : roundUnits num den ≤ n) (hn : n < unitLimit) :
    (ofUnits negative num den).rank.natAbs ≤ n := by
  rw [ofUnits, dif_pos (Nat.lt_of_le_of_lt h hn)]
  rwa [natAbs_rank_finite]

/-- An integer of few bits is rounded to no more than the power of two above it. -/
theorem natAbs_rank_ofInt_le {i : Int} {k : Nat} (hk : k < 1024) (h : i.natAbs < twoPow k) :
    (ofInt i).rank.natAbs ≤ twoPow (k + 1074) := by
  have hunits : i.natAbs * unitsPerOne / 1 < twoPow (k + 1074) := by
    rw [Nat.div_one, twoPow_add]
    exact Nat.mul_lt_mul_of_pos_right h (twoPow_pos 1074)
  exact natAbs_rank_ofUnits_le (roundUnits_le (by omega) hunits) (twoPow_lt_twoPow (by omega))

theorem rank_infinite_nonneg : 0 ≤ (infinite false).rank := by
  rw [rank_infinite, if_neg Bool.false_ne_true]
  exact Int.natCast_nonneg unitLimit

theorem rank_infinite_nonpos : (infinite true).rank ≤ 0 := by
  rw [rank_infinite, if_pos rfl]
  exact Int.neg_nonpos_of_nonneg (Int.natCast_nonneg unitLimit)

theorem rank_ofUnits_nonneg (num den : Nat) : 0 ≤ (ofUnits false num den).rank := by
  unfold ofUnits
  split
  next =>
    rw [rank_finite, if_neg Bool.false_ne_true]
    exact Int.natCast_nonneg _
  next => exact rank_infinite_nonneg

theorem rank_ofUnits_nonpos (num den : Nat) : (ofUnits true num den).rank ≤ 0 := by
  unfold ofUnits
  split
  next =>
    rw [rank_finite, if_pos rfl]
    exact Int.neg_nonpos_of_nonneg (Int.natCast_nonneg _)
  next => exact rank_infinite_nonpos

/-- An integer of no more than 53 bits is held exactly. -/
theorem ofInt_eq_finite (h : i.natAbs ≤ twoPow 53) :
    ∃ m, ofInt i = finite (i < 0) m ∧ m.units = i.natAbs * unitsPerOne := by
  have hround : roundUnits (i.natAbs * unitsPerOne) 1 = i.natAbs * unitsPerOne :=
    roundUnits_one (mod_log2_eq_zero_of_le 1074 h)
  have hlimit : roundUnits (i.natAbs * unitsPerOne) 1 < unitLimit := by
    calc roundUnits (i.natAbs * unitsPerOne) 1 = i.natAbs * twoPow 1074 := hround
      _ ≤ twoPow 53 * twoPow 1074 := Nat.mul_le_mul_right _ h
      _ = twoPow 1127 := (twoPow_add 53 1074).symm
      _ < twoPow 2098 := twoPow_lt_twoPow (by omega)
  refine ⟨⟨_, roundUnits_representable hlimit⟩, ?_, hround⟩
  rw [ofInt, ofUnits, dif_pos hlimit]

theorem truncate?_ofInt (h : i.natAbs ≤ twoPow 53) : (ofInt i).truncate? = some i := by
  obtain ⟨m, hm, hunits⟩ := ofInt_eq_finite h
  have hwhole : m.units / unitsPerOne = i.natAbs := by
    rw [hunits]
    exact Nat.mul_div_cancel _ (twoPow_pos 1074)
  rw [hm, truncate?, hwhole]
  refine congrArg some ?_
  by_cases hneg : i < 0
  · rw [decide_eq_true hneg, if_pos rfl]
    omega
  · rw [decide_eq_false hneg, if_neg Bool.false_ne_true]
    omega

end Double

end Verdict
