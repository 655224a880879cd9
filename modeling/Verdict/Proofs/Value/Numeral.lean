import Verdict.Proofs.Number.Decimal

namespace Verdict

theorem int64?_eq_some {m : Int} {k : Int64} (h : int64? m = some k) : k.toInt = m := by
  unfold int64? at h
  split at h
  next hrange =>
    cases h
    rw [Int64.toInt_minValue, Int64.toInt_maxValue] at hrange
    exact Int64.toInt_ofInt_of_le hrange.1 (by omega)
  next => cases h

namespace Numeral

variable (n : Numeral)

/-- The rational number that a numeral denotes. -/
def value : ℚ := n.signed / (tenPow n.fraction.length : ℕ)

/-- The value of a numeral in a rule. -/
def literal : Value :=
  match Literal.readInteger? n.text with
  | some k => .integer k
  | none => .float n.double

/-- The number is finite, and its decimal, if there is one, is that of the text, if there is one. -/
def Agrees : Prop :=
  n.double.isFinite = true ∧ ∀ x ∈ Decimal.ofDouble? n.double, ∀ y ∈ Decimal.ofText? n.text,
    x.compareValue y = .eq

instance : Decidable n.Agrees := inferInstanceAs (Decidable (_ ∧ _))

theorem isNaN_double : n.double.isNaN = false := Double.isNaN_ofDecimal _ _ _

section Spells

variable {n} {s : String} (hs : n.Spells (trim s.toList))
include hs

theorem Spells.toNumber_eq :
    (Value.string s).toNumber = if n.double.isFinite then n.double else .nan := by
  have hinfinity : ¬ (trim s.toList = "Infinity".toList ∨ trim s.toList = "+Infinity".toList) :=
    not_or.mpr ⟨hs.ne_of_mem (by decide), hs.ne_of_mem (by decide)⟩
  have hminus : trim s.toList ≠ "-Infinity".toList := hs.ne_of_mem (by decide)
  rw [Value.toNumber, readNumber]
  simp only [hs.ne_nil, hinfinity, hminus, if_false, hs.ofText?_eq]

theorem Spells.toDecimal?_eq : (Value.string s).toDecimal? = Decimal.ofText? n.text := by
  simp only [Value.toDecimal?, hs.ne_nil, if_false, hs.decimal_eq]

variable (hscale : n.fraction.length ≤ maxScale) (hroom : n.mantissa < mantissaLimit)
include hscale hroom

/-- With room in a decimal for all digits, the number that is spelled decides. -/
theorem Spells.compareNumbers_integer (k : Int64) :
    Value.compareNumbers (.string s) (.integer k) = some (compare n.value k.toInt) := by
  have hfinite : n.double.isFinite = true :=
    Double.isFinite_ofDecimal (k := 96) (by decide) hroom n.fraction.length
  obtain ⟨x, hx, hxm, hxs⟩ := n.decimal_text hscale hroom
  obtain ⟨y, hy, hym, hys⟩ := Decimal.ofInt?_toInt k
  have hxvalue : x.value = n.value := by rw [Decimal.value, hxm, hxs, value]
  have hyvalue : y.value = k.toInt := by
    rw [Decimal.value, hym, hys, tenPow_zero, Nat.cast_one, div_one]
  rw [Value.compareNumbers_eq, hs.toNumber_eq, hs.toDecimal?_eq, if_pos hfinite, n.isNaN_double,
    Value.isNaN_toNumber_integer, hx, Value.toDecimal?, hy]
  simp only [Bool.or_self, Bool.false_eq_true, if_false, Decimal.compareValue_eq_compare, hxvalue,
    hyvalue]

end Spells

theorem spells_text : n.Spells (trim (String.ofList n.text).toList) := by
  rw [String.toList_ofList, n.trim_text]
  exact .inl rfl

/-- An integer of 64 bits and its text have the same decimal. -/
theorem compareNumbers_integer {k : Int64} (h : Literal.readInteger? n.text = some k) :
    Value.compareNumbers (.integer k) (.string (String.ofList n.text)) = some .eq := by
  rw [n.readInteger?_text] at h
  split at h
  next hn =>
    have hk : k.toInt = n.signed := int64?_eq_some h
    have hmantissa : n.mantissa < mantissaLimit := by
      have hsigned : n.signed.natAbs = n.mantissa := by
        unfold signed
        split <;> simp
      rw [← hsigned, ← hk]
      exact Nat.lt_trans (natAbs_toInt_lt k) (by decide)
    have hvalue : n.value = k.toInt := by
      rw [value, hn, List.length_nil, tenPow_zero, Nat.cast_one, div_one, hk]
    have hscale : n.fraction.length ≤ maxScale := hn ▸ Nat.zero_le _
    have hnumbers := n.spells_text.compareNumbers_integer hscale hmantissa k
    rw [Value.compareNumbers_swap, hnumbers, compare_eq_iff_eq.mpr hvalue]
    rfl
  next => cases h

theorem compareNumbers_float :
    Value.compareNumbers (.float n.double) (.string (String.ofList n.text)) = some .eq ↔
      n.Agrees := by
  rw [Value.compareNumbers_eq, n.spells_text.toNumber_eq, n.spells_text.toDecimal?_eq,
    Value.toNumber, Value.toDecimal?, n.isNaN_double, Bool.false_or]
  cases hfinite : n.double.isFinite with
  | false => simp [Agrees, hfinite, Double.isNaN]
  | true =>
    have hself := Double.compare?_self n.isNaN_double
    rw [if_pos rfl, n.isNaN_double]
    cases hx : Decimal.ofDouble? n.double with
    | none => simp [Agrees, hfinite, hx, hself]
    | some x =>
      cases hy : Decimal.ofText? n.text with
      | none => simp [Agrees, hfinite, hx, hy, hself]
      | some y => simp [Agrees, hfinite, hx, hy]

theorem isSome_readInteger?_text : (Literal.readInteger? n.text).isSome = true ↔
    n.fraction = [] ∧ Int64.minValue.toInt ≤ n.signed ∧ n.signed ≤ Int64.maxValue.toInt := by
  have hrange : (int64? n.signed).isSome = true ↔
      Int64.minValue.toInt ≤ n.signed ∧ n.signed ≤ Int64.maxValue.toInt := by
    unfold int64?
    split
    next h => simpa using h
    next h => simpa using h
  rw [n.readInteger?_text]
  split
  next hn => simpa [hn] using hrange
  next hn => simp [hn]

theorem looseEq_text_iff : n.literal.looseEq (.string (String.ofList n.text)) = true ↔
    (Literal.readInteger? n.text).isSome = true ∨ n.Agrees := by
  cases hread : Literal.readInteger? n.text with
  | some k =>
    have heq := n.compareNumbers_integer hread
    simp [literal, hread, Value.looseEq, Value.looseScalarEq, Value.scalar, Value.primitive,
      Value.isNullish, heq]
  | none =>
    have heq := n.compareNumbers_float
    simp [literal, hread, Value.looseEq, Value.looseScalarEq, Value.scalar, Value.primitive,
      Value.isNullish, heq]

end Numeral

end Verdict
