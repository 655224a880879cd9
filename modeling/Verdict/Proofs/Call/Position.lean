import Verdict.Call.Methods
import Verdict.Proofs.Number.Rounding
import Verdict.Proofs.Text.Substring

namespace Verdict

theorem Value.toInteger_integer {n : Int64} (h : n.toInt.natAbs ≤ twoPow 53) :
    (integer n).toInteger = n := by
  obtain ⟨m, hm, _⟩ := Double.ofInt_eq_finite h
  have htruncate := Double.truncate?_ofInt h
  have hnumber : (integer n).toNumber = .finite (n.toInt < 0) m := hm
  rw [hm] at htruncate
  rw [toInteger, hnumber]
  dsimp only
  rw [htruncate, Option.getD_some, Int64.ofIntClamp_toInt]

/-- A position is its own integer. -/
theorem Value.toInt_toInteger_ofNat {n : Nat} (h : n < 2 ^ 53) :
    (integer (Int64.ofNat n)).toInteger.toInt = n := by
  have hint : (Int64.ofNat n).toInt = n := Int64.toInt_ofNat_of_lt (by omega)
  rw [toInteger_integer, hint]
  rw [hint, Int.natAbs_natCast]
  exact Nat.le_of_lt h

namespace Method

variable {s : String} {i n : Nat}

theorem relativeIndex_of_nonneg {index : Int} (h : 0 ≤ index) (length : Nat) :
    relativeIndex index length = min index.toNat length := by
  rw [relativeIndex, if_neg (by omega)]

theorem positionArgument_eq (args : List Value) (i length : Nat) :
    (positionArgument args i length : Int) =
      min (max (argument args i).toInteger.toInt 0) length := by
  rw [positionArgument, relativeIndex_of_nonneg (by omega)]
  omega

theorem startsWith_ofNat (hs : s.length < 2 ^ 53) (hi : i ≤ s.length) (p : Value) :
    startsWith (some (.string s)) [p, .integer (Int64.ofNat i)] =
      .ok (.boolean (p.text.toList.isPrefixOf (s.toList.drop i))) := by
  have hposition : positionArgument [p, .integer (Int64.ofNat i)] 1 s.toList.length = i := by
    have hclamped := positionArgument_eq [p, .integer (Int64.ofNat i)] 1 s.toList.length
    have harg : argument [p, .integer (Int64.ofNat i)] 1 = .integer (Int64.ofNat i) := rfl
    rw [harg, Value.toInt_toInteger_ofNat (by omega), String.length_toList] at hclamped
    rw [String.length_toList]
    omega
  simp [startsWith, stringReceiver, hposition, argument, bind, Except.bind, pure, Except.pure]

theorem substr_ofNat (hs : s.length < 2 ^ 53) (hi : i ≤ s.length) (hn : n < 2 ^ 53) :
    substr (some (.string s)) [.integer (Int64.ofNat i), .integer (Int64.ofNat n)] =
      .ok (stringOf ((s.toList.drop i).take n)) := by
  have hstart : relativeIndex (Value.integer (Int64.ofNat i)).toInteger.toInt s.toList.length = i := by
    rw [Value.toInt_toInteger_ofNat (by omega), relativeIndex_of_nonneg (by omega),
      String.length_toList]
    omega
  have hlength := Value.toInt_toInteger_ofNat hn
  simp [substr, stringReceiver, argument, hstart, hlength, bind, Except.bind, pure, Except.pure]

theorem ofNat_ne_neg_one (hn : n < 2 ^ 53) : Int64.ofNat n ≠ -1 := by
  intro h
  have hint : (Int64.ofNat n).toInt = n := Int64.toInt_ofNat_of_lt (by omega)
  rw [h] at hint
  have hminus : (-1 : Int64).toInt = -1 := by decide
  omega

/-- `indexOf` finds the first position, from the given one on, at which `startsWith` finds the text, and
there `substr` gives the text. -/
theorem indexOf_agrees {s : String} (hs : s.length < 2 ^ 53) (p : Value) (f : Option Value) :
    let c : Int := min (max (f.getD .undefined).toInteger.toInt 0) s.length
    ∃ k : Int64, indexOf (some (.string s)) (p :: f.toList) = .ok (.integer k) ∧
      (k ≠ -1 → c ≤ k.toInt ∧
        substr (some (.string s)) [.integer k, .integer (Int64.ofNat p.text.length)] =
          .ok (.string p.text) ∧
        startsWith (some (.string s)) [p, .integer k] = .ok (.boolean true) ∧
        ∀ j : Nat, c ≤ j → j < k.toInt →
          startsWith (some (.string s)) [p, .integer (Int64.ofNat j)] = .ok (.boolean false)) ∧
      (k = -1 → ∀ j : Nat, c ≤ j → j ≤ s.length →
        startsWith (some (.string s)) [p, .integer (Int64.ofNat j)] = .ok (.boolean false)) := by
  intro c
  have hposition : (positionArgument (p :: f.toList) 1 s.toList.length : Int) = c := by
    have harg : argument (p :: f.toList) 1 = f.getD .undefined := by cases f <;> rfl
    rw [positionArgument_eq, harg, String.length_toList]
  have hindex : indexOf (some (.string s)) (p :: f.toList) = .ok (positionValue (indexOfFrom
      p.text.toList s.toList (positionArgument (p :: f.toList) 1 s.toList.length))) := rfl
  rw [hindex]
  generalize positionArgument (p :: f.toList) 1 s.toList.length = start at hposition ⊢
  have hstart : start ≤ s.toList.length := by
    rw [String.length_toList]
    omega
  have hfalse : ∀ {j : Nat}, j ≤ s.length → ¬ p.text.toList <+: s.toList.drop j →
      startsWith (some (.string s)) [p, .integer (Int64.ofNat j)] = .ok (.boolean false) := by
    intro j hj hnot
    rw [startsWith_ofNat hs hj, Bool.eq_false_iff.mpr (mt List.isPrefixOf_iff_prefix.mp hnot)]
  cases hfound : indexOfFrom p.text.toList s.toList start with
  | none =>
    refine ⟨-1, rfl, fun h => absurd rfl h, fun _ j hj hlength => ?_⟩
    exact hfalse hlength (indexOfFrom_eq_none hfound j (by omega)
      (by rwa [String.length_toList]))
  | some k =>
    obtain ⟨hle, hlength, hprefix, hfirst⟩ := indexOfFrom_eq_some hstart hfound
    rw [String.length_toList] at hlength
    have hint : (Int64.ofNat k).toInt = k := Int64.toInt_ofNat_of_lt (by omega)
    have htext : p.text.length < 2 ^ 53 := by
      have hfits := hprefix.length_le
      rw [List.length_drop, String.length_toList, String.length_toList] at hfits
      omega
    refine ⟨Int64.ofNat k, rfl, fun _ => ⟨by omega, ?_, ?_, fun j hj hlt => ?_⟩,
      fun h => absurd h (ofNat_ne_neg_one (by omega))⟩
    · rw [substr_ofNat hs hlength htext, ← String.length_toList, ← List.prefix_iff_eq_take.mp hprefix,
        stringOf, String.ofList_toList]
    · rw [startsWith_ofNat hs hlength, List.isPrefixOf_iff_prefix.mpr hprefix]
    · exact hfalse (by omega) (hfirst j (by omega) (by omega))

theorem indexOf_agrees_accents :
    "añaña".length < 2 ^ 53 ∧ ∃ k : Int64,
      indexOf (some (.string "añaña")) [.string "ña", .float 2] = .ok (.integer k) ∧ k ≠ -1 ∧
      substr (some (.string "añaña")) [.integer k, .integer 2] = .ok (.string "ña") ∧
      startsWith (some (.string "añaña")) [.string "ña", .integer k] = .ok (.boolean true) := by
  have hlength : "añaña".length < 2 ^ 53 := by decide
  obtain ⟨k, hk, hfound, _⟩ := indexOf_agrees hlength (.string "ña") (some (.float 2))
  have hposition : positionArgument [.string "ña", .float 2] 1 "añaña".toList.length = 2 := by
    decide +kernel
  have hthree : indexOf (some (.string "añaña")) (.string "ña" :: (some (Value.float 2)).toList) =
      .ok (positionValue (indexOfFrom "ña".toList "añaña".toList
        (positionArgument [.string "ña", .float 2] 1 "añaña".toList.length))) := rfl
  rw [hposition, hk] at hthree
  obtain rfl : k = 3 := by
    cases hthree
    decide +kernel
  obtain ⟨_, hsubstr, hstarts, _⟩ := hfound (by decide)
  exact ⟨hlength, 3, hk, by decide, hsubstr, hstarts⟩

end Method

end Verdict
