import Verdict.Call.Methods
import Verdict.Proofs.Number.Rounding
import Verdict.Proofs.Value.Comparison

namespace Verdict

theorem Double.eqNumber_iff {x y : Double} :
    x.eqNumber y = true ↔ x.isNaN = false ∧ y.isNaN = false ∧ x.rank = y.rank := by
  simp [eqNumber, compare?, and_assoc]

namespace Decimal

theorem ofDouble?_zero (negative : Bool) {m : Magnitude} (hm : m.units = 0) :
    ofDouble? (.finite negative m) = ofInt? 0 := by
  simp [ofDouble?, hm, ofBinary?, ofInt?]

/-- Numbers of one rank, the two zeros among them, have one decimal. -/
theorem ofDouble?_congr {x y : Double} (hx : x.isNaN = false) (hy : y.isNaN = false)
    (h : x.rank = y.rank) : ofDouble? x = ofDouble? y := by
  have hnatAbs := congrArg Int.natAbs h
  cases x with
  | nan => cases hx
  | infinite s =>
    cases y with
    | nan => cases hy
    | infinite t => rfl
    | finite t n =>
      rw [Double.natAbs_rank_infinite, Double.natAbs_rank_finite] at hnatAbs
      exact absurd n.representable.1 (by omega)
  | finite s m =>
    cases y with
    | nan => cases hy
    | infinite t =>
      rw [Double.natAbs_rank_infinite, Double.natAbs_rank_finite] at hnatAbs
      exact absurd m.representable.1 (by omega)
    | finite t n =>
      rw [Double.natAbs_rank_finite, Double.natAbs_rank_finite] at hnatAbs
      by_cases hzero : m.units = 0
      · rw [ofDouble?_zero s hzero, ofDouble?_zero t (by omega)]
      · have hm : m = n := by
          cases m
          cases n
          simpa using hnatAbs
        have hsign : s = t := by
          rw [Double.rank_finite, Double.rank_finite] at h
          cases s <;> cases t <;> simp at h ⊢ <;> omega
        rw [hm, hsign]

theorem compareValue_self (x : Decimal) : x.compareValue x = .eq :=
  Int.compare_eq_eq.mpr rfl

end Decimal

namespace Value

variable {a b : Value}

theorem compareNumbers_float_of_eqNumber {x y : Double} (h : x.eqNumber y = true) :
    compareNumbers (float x) (float y) = some .eq := by
  obtain ⟨hx, hy, hrank⟩ := Double.eqNumber_iff.mp h
  rw [compareNumbers_eq]
  simp only [toNumber, toDecimal?, hx, hy, Bool.or_self, Bool.false_eq_true, if_false,
    Decimal.ofDouble?_congr hx hy hrank]
  cases Decimal.ofDouble? y with
  | none => exact beq_iff_eq.mp h
  | some d => exact congrArg some d.compareValue_self

theorem looseEq_of_strictEq (h : a.strictEq b = true) : a.looseEq b = true := by
  revert h
  refine strictEq.induct (fun a b => a.strictEq b = true → a.looseEq b = true)
    (fun xs ys => strictEqAll xs ys = true → looseEqAll xs ys = true) ?undefined ?null ?booleans
    ?integers ?floats ?strings ?arrays ?regexes ?types ?nil ?cons ?lengths a b
  case floats =>
    intro x y h
    exact beq_iff_eq.mpr (compareNumbers_float_of_eqNumber h)
  case arrays =>
    intro xs ys ih h
    exact ih h
  case cons =>
    intro x xs y ys hhead htail h
    rw [strictEqAll, Bool.and_eq_true] at h
    rw [looseEqAll, hhead h.1, htail h.2]
    rfl
  case booleans =>
    intro x y h
    obtain rfl : x = y := beq_iff_eq.mp h
    exact beq_iff_eq.mpr (congrArg some (Int.compare_eq_eq.mpr rfl))
  case integers =>
    intro m n h
    obtain rfl : m = n := beq_iff_eq.mp h
    exact beq_iff_eq.mpr (congrArg some (Int.compare_eq_eq.mpr rfl))
  case types =>
    intro a b hundefined hnull hbooleans hintegers hfloats hstrings harrays hregexes h
    rw [strictEq.eq_9 a b hundefined hnull hbooleans hintegers hfloats hstrings harrays
      hregexes] at h
    cases h
  case lengths =>
    intro xs ys hnil hcons h
    rw [strictEqAll.eq_3 xs ys hnil hcons] at h
    cases h
  all_goals
    intros
    assumption

end Value

open Value Comparison

namespace Method

/-- Without a position to begin at, all elements are searched. -/
theorem indexOf_array (items : List Value) (a : Value) : indexOf (some (.array items)) [a] =
    .ok (positionValue (items.findIdx? fun x => x.strictEq a)) := by
  have hstart : relativeIndex (argument [a] 1).toInteger.toInt items.length = 0 := by
    have hzero : (argument [a] 1).toInteger.toInt = 0 := rfl
    rw [hzero]
    simp [relativeIndex]
  have hneedle : argument [a] 0 = a := rfl
  simp [indexOf, hstart, hneedle]

/-- A position is found just where an array, whose length is a word of 64 bits, has the value. -/
theorem indexOf_array_found {items : List Value} (hitems : items.length < 2 ^ 64) (a : Value) :
    ∃ k : Int64, indexOf (some (.array items)) [a] = .ok (.integer k) ∧
      (k ≠ -1 ↔ ∃ x ∈ items, x.strictEq a = true) := by
  rw [indexOf_array]
  cases hfound : items.findIdx? fun x => x.strictEq a with
  | none =>
    refine ⟨-1, rfl, iff_of_false (fun h => h rfl) ?_⟩
    rintro ⟨x, hx, heq⟩
    have hnone := List.findIdx?_eq_none_iff.mp hfound x hx
    simp [heq] at hnone
  | some n =>
    obtain ⟨hn, heq, _⟩ := List.findIdx?_eq_some_iff_getElem.mp hfound
    refine ⟨Int64.ofNat n, rfl, iff_of_true ?_ ⟨items[n], List.getElem_mem hn, heq⟩⟩
    intro hminus
    have hword : n % 2 ^ 64 = 2 ^ 64 - 1 := congrArg (fun k : Int64 => k.toUInt64.toNat) hminus
    omega

end Method

/-- Strict equality refines loose equality. So an array that holds a value has an element that is
loosely equal to it, and it holds a value just where the value has a position in it; the length of
an array is a word of 64 bits. -/
theorem strictEq_refines_looseEq (a b : Value) :
    (a.strictEq b = true → a.looseEq b = true) ∧
      ∀ items : List Value,
        (member.holds? a (.array items) = some true → ∃ x ∈ items, x.looseEq a = true) ∧
        (items.length < 2 ^ 64 → ∃ k : Int64,
          Method.indexOf (some (.array items)) [a] = .ok (.integer k) ∧
            (member.holds? a (.array items) = some true ↔ k ≠ -1)) := by
  have hmember : ∀ items, member.holds? a (.array items) = some true ↔
      ∃ x ∈ items, x.strictEq a = true := by
    intro items
    rw [holds?, Option.some_inj, contains, List.any_eq_true]
  refine ⟨looseEq_of_strictEq, fun items => ⟨?_, ?_⟩⟩
  · rw [hmember]
    rintro ⟨x, hx, h⟩
    exact ⟨x, hx, looseEq_of_strictEq h⟩
  · intro hitems
    obtain ⟨k, hk, hfound⟩ := Method.indexOf_array_found hitems a
    exact ⟨k, hk, by rw [hmember, hfound]⟩

/-- The two zeros, in arrays that stand behind an absent value. -/
theorem strictEq_refines_looseEq_zeros :
    let a : Value := .array [.float (-0), .null]
    let b : Value := .array [.float 0, .null]
    let items : List Value := [.undefined, b]
    a.strictEq b = true ∧ a.looseEq b = true ∧ items.length < 2 ^ 64 ∧
      member.holds? a (.array items) = some true ∧ (∃ x ∈ items, x.looseEq a = true) ∧
      ∃ k : Int64, Method.indexOf (some (.array items)) [a] = .ok (.integer k) ∧ k ≠ -1 := by
  intro a b items
  have hstrict : a.strictEq b = true := by
    subst a b
    decide +kernel
  obtain ⟨hloose, hitems⟩ := strictEq_refines_looseEq a b
  have hlength : items.length < 2 ^ 64 := by
    subst items
    decide
  have hmember : member.holds? a (.array items) = some true := by
    subst a b items
    decide +kernel
  obtain ⟨hsome, hfound⟩ := hitems items
  obtain ⟨k, hk, hiff⟩ := hfound hlength
  exact ⟨hstrict, hloose hstrict, hlength, hmember, hsome hmember, k, hk, hiff.mp hmember⟩

end Verdict
