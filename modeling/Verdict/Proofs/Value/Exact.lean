import Mathlib.Tactic.NormNum
import Verdict.Proofs.Value.Comparison
import Verdict.Proofs.Value.Numeral

namespace Verdict

/-- A text of up to 28 fraction digits, with room for all its digits, compares with an integer as
the number that it spells. -/
theorem numeral_compares_exactly (s : String) (n : Numeral) (k : Int64)
    (hs : n.Spells (trim s.toList)) (hscale : n.fraction.length ≤ 28)
    (hroom : n.mantissa ≤ 2 ^ 96 - 1) :
    (Value.string s).looseCompare (.integer k) = some (compare n.value k.toInt) ∧
      (Value.integer k).looseCompare (.string s) = some (compare (k.toInt : ℚ) n.value) ∧
      ((Value.string s).looseEq (.integer k) = true ↔ n.value = k.toInt) ∧
      ((Value.integer k).looseEq (.string s) = true ↔ n.value = k.toInt) := by
  have hlimit : n.mantissa < mantissaLimit := Nat.lt_of_le_of_lt hroom (by decide)
  have hnumbers := hs.compareNumbers_integer hscale hlimit k
  have horder : (Value.string s).looseCompare (.integer k) = some (compare n.value k.toInt) :=
    hnumbers
  have hequal : (Value.string s).looseEq (.integer k) = true ↔ n.value = k.toInt := by
    simp [Value.looseEq, Value.looseScalarEq, Value.scalar, Value.primitive, Value.isNullish,
      hnumbers]
  refine ⟨horder, ?_, hequal, ?_⟩
  · rw [Value.looseCompare_swap, horder, Option.map_some, ← Std.OrientedOrd.eq_swap]
  · rwa [Value.looseEq_comm]

/-- The two numbers are one and the same as floating-point numbers. -/
theorem numeral_compares_exactly_padded :
    (Value.string " +9007199254740993.000 ").looseCompare (.integer 9007199254740992) =
        some .gt ∧
      (Value.integer 9007199254740992).looseCompare (.string " +9007199254740993.000 ") =
        some .lt ∧
      ¬ (Value.string " +9007199254740993.000 ").looseEq (.integer 9007199254740992) = true ∧
      ¬ (Value.integer 9007199254740992).looseEq (.string " +9007199254740993.000 ") = true := by
  let n : Numeral := ⟨false, "9007199254740993".toList, "000".toList, by decide, by decide⟩
  have hvalue : n.value = 9007199254740993 := by
    have hsigned : n.signed = 9007199254740993000 := by decide
    have hplaces : tenPow n.fraction.length = 1000 := by decide
    rw [Numeral.value, hsigned, hplaces]
    norm_num
  have hk : (((9007199254740992 : Int64).toInt : Int) : ℚ) = 9007199254740992 := by
    have hinteger : (9007199254740992 : Int64).toInt = 9007199254740992 := by decide
    rw [hinteger]
    norm_num
  obtain ⟨horder, hreverse, hequal, hequal'⟩ :=
    numeral_compares_exactly " +9007199254740993.000 " n 9007199254740992 (by decide) (by decide)
      (by decide)
  rw [hvalue, hk] at horder hreverse hequal hequal'
  refine ⟨?_, ?_, ?_, ?_⟩
  · rw [horder, compare_gt_iff_gt.mpr (by norm_num)]
  · rw [hreverse, compare_lt_iff_lt.mpr (by norm_num)]
  · rw [hequal]
    norm_num
  · rw [hequal']
    norm_num

end Verdict
