import Verdict.Proofs.Call.Position

namespace Verdict

section Words

/-- The sum of two words, or the greatest word if that is less. -/
def saturatingAdd (x y : UInt64) : UInt64 :=
  if x + y < x then UInt64.ofNat (2 ^ 64 - 1) else x + y

/-- The difference of two words, or zero if that is more. -/
def saturatingSub (x y : UInt64) : UInt64 :=
  if x < y then 0 else x - y

/-- The absolute value. The word of the least integer is right, although it has no negative. -/
def unsignedAbs (k : Int64) : UInt64 :=
  if k < 0 then (-k).toUInt64 else k.toUInt64

theorem toNat_saturatingAdd (x y : UInt64) :
    (saturatingAdd x y).toNat = min (x.toNat + y.toNat) (2 ^ 64 - 1) := by
  have hx := x.toNat_lt
  have hy := y.toNat_lt
  have hsum := UInt64.toNat_add x y
  unfold saturatingAdd
  split
  next hcarry =>
    rw [UInt64.lt_iff_toNat_lt] at hcarry
    have hgreatest : (UInt64.ofNat (2 ^ 64 - 1)).toNat = 2 ^ 64 - 1 := by decide
    omega
  next hcarry =>
    rw [UInt64.lt_iff_toNat_lt] at hcarry
    omega

theorem toNat_saturatingSub (x y : UInt64) : (saturatingSub x y).toNat = x.toNat - y.toNat := by
  unfold saturatingSub
  split
  next hlt =>
    have hle := Nat.le_of_lt (UInt64.lt_iff_toNat_lt.mp hlt)
    exact (Nat.sub_eq_zero_of_le hle).symm
  next hle => exact UInt64.toNat_sub_of_le x y (UInt64.not_lt.mp hle)

theorem toNat_min (x y : UInt64) : (min x y).toNat = min x.toNat y.toNat := by
  change (if x ≤ y then x else y).toNat = _
  split
  next hle =>
    rw [UInt64.le_iff_toNat_le] at hle
    omega
  next hle =>
    rw [UInt64.le_iff_toNat_le] at hle
    omega

theorem toInt_max (j k : Int64) : (max j k).toInt = max j.toInt k.toInt := by
  change (if j ≤ k then k else j).toInt = _
  split
  next hle =>
    rw [Int64.le_iff_toInt_le] at hle
    omega
  next hle =>
    rw [Int64.le_iff_toInt_le] at hle
    omega

theorem toNat_toUInt64 (k : Int64) : (k.toUInt64.toNat : Int) = k.toInt % 2 ^ 64 := by
  have hlt := k.toUInt64.toNat_lt
  have hmod : k.toInt = (k.toUInt64.toNat : Int).bmod (2 ^ 64) := k.toBitVec.toInt_eq_toNat_bmod
  rw [Int.bmod_def] at hmod
  split at hmod <;> omega

theorem toNat_unsignedAbs (k : Int64) : (unsignedAbs k).toNat = k.toInt.natAbs := by
  have hword := toNat_toUInt64 k
  have hlow := k.le_toInt
  have hhigh := k.toInt_lt
  unfold unsignedAbs
  split
  next hneg =>
    rw [Int64.lt_iff_toInt_lt, Int64.toInt_zero] at hneg
    have hsize : UInt64.size = 2 ^ 64 := rfl
    rw [Int64.toUInt64_neg, UInt64.toNat_neg, hsize]
    omega
  next hneg =>
    rw [Int64.lt_iff_toInt_lt, Int64.toInt_zero] at hneg
    omega

end Words

namespace Method

/-- A position in words, as `relativeIndex` gives it. -/
def relativeWord (index : Int64) (length : UInt64) : UInt64 :=
  if index < 0 then saturatingSub length (unsignedAbs index) else min index.toUInt64 length

/-- The number of characters that an argument asks for, in words. -/
def countWord (count : Value) (length : UInt64) : UInt64 :=
  match count with
  | .undefined => length
  | v => (max v.toInteger 0).toUInt64

/-- The bounds of the part that `substr` gives of a string of this length, in words. -/
def sliceWords (args : List Value) (length : UInt64) : UInt64 × UInt64 :=
  let start := relativeWord (argument args 0).toInteger length
  (start, min (saturatingAdd start (countWord (argument args 1) length)) length)

theorem relativeIndex_eq (index : Int) (length : Nat) : (relativeIndex index length : Int) =
    if 0 ≤ index then min index length else max (length + index) 0 := by
  unfold relativeIndex
  split <;> split <;> omega

theorem toNat_relativeWord (index : Int64) (length : UInt64) :
    (relativeWord index length).toNat = relativeIndex index.toInt length.toNat := by
  have hword := toNat_toUInt64 index
  have hlow := index.le_toInt
  have hhigh := index.toInt_lt
  unfold relativeWord relativeIndex
  split
  next hneg =>
    rw [Int64.lt_iff_toInt_lt, Int64.toInt_zero] at hneg
    rw [if_pos hneg, toNat_saturatingSub, toNat_unsignedAbs]
  next hneg =>
    rw [Int64.lt_iff_toInt_lt, Int64.toInt_zero] at hneg
    rw [if_neg hneg, toNat_min]
    omega

/-- The number of characters that an argument asks for. -/
def countArgument (count : Value) (length : Nat) : Nat :=
  match count with
  | .undefined => length
  | v => (max v.toInteger.toInt 0).toNat

theorem countArgument_of_ne {count : Value} (h : count ≠ .undefined) (length : Nat) :
    countArgument count length = (max count.toInteger.toInt 0).toNat := by
  cases count with
  | undefined => exact absurd rfl h
  | _ => rfl

/-- Where the part ends that begins at `start`. -/
theorem stop_eq (count : Value) (start length : Nat) :
    ((min (start + countArgument count length) length : Nat) : Int) = match count with
      | .undefined => (length : Int)
      | v => min (start + max v.toInteger.toInt 0) (length : Int) := by
  split
  next =>
    rw [countArgument]
    omega
  next h =>
    rw [countArgument_of_ne h]
    omega

theorem toNat_countWord (count : Value) (length : UInt64) :
    (countWord count length).toNat = countArgument count length.toNat := by
  have hcount : ∀ k : Int64, (max k 0).toUInt64.toNat = (max k.toInt 0).toNat := by
    intro k
    have hword := toNat_toUInt64 (max k 0)
    have hhigh := (max k 0).toInt_lt
    rw [toInt_max, Int64.toInt_zero] at hword hhigh
    omega
  unfold countWord countArgument
  split
  next => rfl
  next => exact hcount _

theorem toNat_sliceWords (args : List Value) (length : UInt64) :
    (sliceWords args length).1.toNat =
        relativeIndex (argument args 0).toInteger.toInt length.toNat ∧
      (sliceWords args length).2.toNat =
        min (relativeIndex (argument args 0).toInteger.toInt length.toNat +
          countArgument (argument args 1) length.toNat) length.toNat := by
  have hstart := toNat_relativeWord (argument args 0).toInteger length
  have hlength := length.toNat_lt
  refine ⟨hstart, ?_⟩
  unfold sliceWords
  dsimp only
  rw [toNat_min, toNat_saturatingAdd, hstart, toNat_countWord]
  omega

theorem substr_eq (s : String) (args : List Value) :
    substr (some (.string s)) args = .ok (stringOf ((s.toList.drop
      (relativeIndex (argument args 0).toInteger.toInt s.length)).take
        (countArgument (argument args 1) s.length))) := by
  rw [← String.length_toList]
  simp only [substr, stringReceiver, bind, Except.bind, pure, Except.pure]
  rfl

theorem endsWith_eq (s : String) (args : List Value) :
    endsWith (some (.string s)) args = .ok (.boolean ((argument args 0).text.toList.isSuffixOf
      (s.toList.take (countArgument (argument args 1) s.length)))) := by
  rw [← String.length_toList]
  simp only [endsWith, stringReceiver, bind, Except.bind, pure, Except.pure]
  split
  next h => rw [h, countArgument]
  next h =>
    -- A position is clamped to the length, which a count need not be.
    have hstop : s.toList.take (positionArgument args 1 s.toList.length) =
        s.toList.take (max (argument args 1).toInteger.toInt 0).toNat := by
      rw [positionArgument, relativeIndex_of_nonneg (by omega), List.take_eq_take_iff]
      omega
    rw [hstop, countArgument_of_ne h]

/-- A string, cut before a position and after some characters more. -/
theorem slice_append (s : List Char) {start : Nat} (hstart : start ≤ s.length) (count : Nat) :
    s = s.take start ++ ((s.drop start).take count ++ s.drop (start + count)) ∧
      (s.take start).length = start ∧
      (s.take start ++ (s.drop start).take count).length = min (start + count) s.length := by
  refine ⟨?_, List.length_take_of_le hstart, ?_⟩
  · rw [← List.drop_drop, List.take_append_drop, List.take_append_drop]
  · rw [List.length_append, List.length_take, List.length_take, List.length_drop]
    omega

/-- The part of a string that `substr` gives lies between two positions, the second not before the
first and neither outside the string; computed in words they are the same. `endsWith` looks at the
part that begins with the string. -/
theorem substr_between (s : String) (args : List Value) :
    let n : Int := s.length
    let a := (argument args 0).toInteger.toInt
    let i := if 0 ≤ a then min a n else max (n + a) 0
    let j := match argument args 1 with
      | .undefined => n
      | v => min (i + max v.toInteger.toInt 0) n
    (0 ≤ i ∧ i ≤ j ∧ j ≤ n) ∧
      (∀ length : UInt64, length.toNat = s.length →
        ((sliceWords args length).1.toNat : Int) = i ∧ ((sliceWords args length).2.toNat : Int) = j) ∧
      (∃ before part after, s.toList = before ++ (part ++ after) ∧ (before.length : Int) = i ∧
        ((before ++ part).length : Int) = j ∧
        substr (some (.string s)) args = .ok (stringOf part)) ∧
      ∀ (p : Value) (length : List Value), ∃ head holds,
        substr (some (.string s)) (.integer 0 :: length) = .ok (stringOf head) ∧
        endsWith (some (.string s)) (p :: length) = .ok (.boolean holds) ∧
        (holds = true ↔ p.text.toList <:+ head) := by
  intro n a i j
  have hstart : (relativeIndex a s.length : Int) = i := relativeIndex_eq a s.length
  have hle : relativeIndex a s.length ≤ s.length := by
    unfold relativeIndex
    split <;> omega
  have hstop : ((min (relativeIndex a s.length + countArgument (argument args 1) s.length)
      s.length : Nat) : Int) = j := by
    rw [stop_eq, hstart]
  refine ⟨by omega, ?_, ?_, ?_⟩
  · intro length hlength
    obtain ⟨hfirst, hsecond⟩ := toNat_sliceWords args length
    rw [hlength] at hfirst hsecond
    exact ⟨by rw [hfirst, hstart], by rw [hsecond, hstop]⟩
  · obtain ⟨happend, hbefore, hpart⟩ := slice_append s.toList
      (hle.trans_eq String.length_toList.symm) (countArgument (argument args 1) s.length)
    rw [String.length_toList] at hpart
    exact ⟨_, _, _, happend, by rw [hbefore, hstart], by rw [hpart, hstop], substr_eq s args⟩
  · intro p length
    have hzero : relativeIndex (Value.integer 0).toInteger.toInt s.length = 0 := by
      have hinteger : (Value.integer 0).toInteger.toInt = 0 :=
        Value.toInt_toInteger_ofNat (n := 0) (by omega)
      rw [hinteger, relativeIndex_of_nonneg (le_refl 0)]
      omega
    refine ⟨_, _, substr_eq s _, endsWith_eq s _, ?_⟩
    have hfirst : argument (.integer 0 :: length) 0 = .integer 0 := rfl
    rw [List.isSuffixOf_iff_suffix, hfirst, hzero, List.drop_zero]
    exact Iff.rfl

theorem substr_between_infinite :
    (5 : UInt64).toNat = "añaña".length ∧
      (sliceWords [.integer (-2), .float (.infinite false)] 5).1.toNat = 3 ∧
      (sliceWords [.integer (-2), .float (.infinite false)] 5).2.toNat = 5 ∧
      substr (some (.string "añaña")) [.integer (-2), .float (.infinite false)] =
        .ok (.string "ña") := by
  have hlength : (5 : UInt64).toNat = "añaña".length := by decide
  obtain ⟨_, hwords, ⟨before, part, after, happend, hbefore, hpart, hsubstr⟩, _⟩ :=
    substr_between "añaña" [.integer (-2), .float (.infinite false)]
  have hindex : (argument [.integer (-2), .float (.infinite false)] 0).toInteger.toInt = -2 := by
    decide +kernel
  have hcount : (Value.float (.infinite false)).toInteger.toInt = 2 ^ 63 - 1 := by decide
  have harg : argument [.integer (-2), .float (.infinite false)] 1 = .float (.infinite false) := rfl
  have hfive : ("añaña".length : Int) = 5 := by decide
  have hthree : (if (0 : Int) ≤ -2 then min (-2) 5 else max (5 + -2) 0) = 3 := by decide
  have hend : min ((3 : Int) + max (2 ^ 63 - 1) 0) 5 = 5 := by decide
  simp only [harg, hindex, hcount, hfive, hthree, hend] at hwords hbefore hpart
  obtain ⟨hfirst, hsecond⟩ := hwords 5 hlength
  have htext : "añaña".toList = ['a', 'ñ', 'a'] ++ (['ñ', 'a'] ++ []) := by decide
  rw [htext] at happend
  rw [List.length_append] at hpart
  have hlengths : before.length = 3 ∧ part.length = 2 := by omega
  obtain ⟨rfl, hrest⟩ := List.append_inj happend hlengths.1.symm
  obtain ⟨rfl, _⟩ := List.append_inj hrest hlengths.2.symm
  exact ⟨hlength, by omega, by omega, hsubstr⟩

end Method

end Verdict
