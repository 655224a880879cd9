import Mathlib.Data.List.Forall2
import Mathlib.Data.Nat.Digits.Defs
import Verdict.Proofs.Number.Form
import Verdict.Value.Text

namespace Verdict

/-- The digits of all bases up to 36, in lower and in upper case. -/
def lowerDigits : List Char := "0123456789abcdefghijklmnopqrstuvwxyz".toList

def upperDigits : List Char := "0123456789ABCDEFGHIJKLMNOPQRSTUVWXYZ".toList

/-- `c` is the digit of value `d`. -/
def IsDigitOf (d : Nat) (c : Char) : Prop :=
  lowerDigits[d]? = some c ∨ upperDigits[d]? = some c

instance (d : Nat) (c : Char) : Decidable (IsDigitOf d c) := inferInstanceAs (Decidable (_ ∨ _))

/-- The values of the digits of a number, the first digit in front. Zero has one digit. -/
def baseDigits (r m : Nat) : List Nat :=
  if m = 0 then [0] else (Nat.digits r m).reverse

/-- The texts of an integer in a base: its digits, of either case each, after a minus sign if it is
negative. -/
def WrittenInt (r : Nat) (n : Int) (t : List Char) : Prop :=
  ∃ ds, t = (if n < 0 then '-' :: ds else ds) ∧ List.Forall₂ IsDigitOf (baseDigits r n.natAbs) ds

section Digits

variable {r d : Nat} {c : Char}

theorem lt_of_isDigitOf (h : IsDigitOf d c) : d < 36 := by
  have hlower : lowerDigits.length = 36 := by decide
  have hupper : upperDigits.length = 36 := by decide
  cases h with
  | inl h =>
    have hd := (List.getElem?_eq_some_iff.mp h).1
    omega
  | inr h =>
    have hd := (List.getElem?_eq_some_iff.mp h).1
    omega

/-- What all digits satisfy, shown for each of the two rows of digits. -/
theorem isDigitOf_induction {P : Nat → Char → Prop} (hlower : ∀ d < 36, P d (lowerDigits.getD d ' '))
    (hupper : ∀ d < 36, P d (upperDigits.getD d ' ')) (h : IsDigitOf d c) : P d c := by
  have hd := lt_of_isDigitOf h
  cases h with
  | inl h =>
    have hrow := hlower d hd
    rwa [List.getD_eq_getElem?_getD, h, Option.getD_some] at hrow
  | inr h =>
    have hrow := hupper d hd
    rwa [List.getD_eq_getElem?_getD, h, Option.getD_some] at hrow

/-- The value of a digit does not hang on the base. -/
theorem digit?_of_isDigitOf (h : IsDigitOf d c) (hd : d < r) : digit? r c = some d := by
  have hrow := isDigitOf_induction (P := fun d c => c.isDigit = true ∧ digitValue c = d ∨
    c.isDigit = false ∧ ('a' ≤ c ∧ c ≤ 'z') ∧ c.toNat - 'a'.toNat + 10 = d ∨
    c.isDigit = false ∧ ¬ ('a' ≤ c ∧ c ≤ 'z') ∧ ('A' ≤ c ∧ c ≤ 'Z') ∧
      c.toNat - 'A'.toNat + 10 = d) (by decide) (by decide) h
  unfold digit?
  rcases hrow with ⟨hdigit, rfl⟩ | ⟨hdigit, hlower, rfl⟩ | ⟨hdigit, hlower, hupper, rfl⟩
  · simp only [hdigit, if_true, hd]
  · simp only [hdigit, Bool.false_eq_true, if_false, if_pos hlower, hd, if_true]
  · simp only [hdigit, Bool.false_eq_true, if_false, if_neg hlower, if_pos hupper, hd, if_true]

theorem ne_mark_of_isDigitOf (h : IsDigitOf d c) (hd : d < 16) : c ≠ 'x' ∧ c ≠ 'X' := by
  have hrow := isDigitOf_induction (P := fun d c => d < 16 → c ≠ 'x' ∧ c ≠ 'X')
    (by decide) (by decide) h
  exact hrow hd

theorem isBlank_of_isDigitOf (h : IsDigitOf d c) : isBlank c = false ∧ c ≠ '-' ∧ c ≠ '+' :=
  isDigitOf_induction (P := fun _ c => isBlank c = false ∧ c ≠ '-' ∧ c ≠ '+')
    (by decide) (by decide) h

/-- The digits in which the decimal text of a number is printed. -/
theorem isDigitOf_digitChar (hd : d < 10) : IsDigitOf d d.digitChar := by
  have hall : ∀ d < 10, IsDigitOf d d.digitChar := by decide
  exact hall d hd

end Digits

section Base

variable {r m : Nat}

theorem baseDigits_zero (r : Nat) : baseDigits r 0 = [0] :=
  if_pos rfl

theorem baseDigits_of_ne_zero (h : m ≠ 0) : baseDigits r m = (Nat.digits r m).reverse :=
  if_neg h

theorem baseDigits_lt (hr : 1 < r) : ∀ d ∈ baseDigits r m, d < r := by
  intro d hd
  by_cases hm : m = 0
  · rw [hm, baseDigits_zero, List.mem_singleton] at hd
    omega
  · rw [baseDigits_of_ne_zero hm, List.mem_reverse] at hd
    exact Nat.digits_lt_base hr hd

theorem baseDigits_ne_nil (r m : Nat) : baseDigits r m ≠ [] := by
  by_cases hm : m = 0
  · rw [hm, baseDigits_zero]
    exact List.cons_ne_nil 0 []
  · rw [baseDigits_of_ne_zero hm, ne_eq, List.reverse_eq_nil_iff]
    exact Nat.digits_ne_nil_iff_ne_zero.mpr hm

theorem foldl_baseDigits (r m : Nat) :
    (baseDigits r m).foldl (fun acc d => acc * r + d) 0 = m := by
  by_cases hm : m = 0
  · rw [hm, baseDigits_zero]
    simp only [List.foldl_cons, List.foldl_nil, Nat.zero_mul, Nat.add_zero]
  · have hstep : ∀ d acc : Nat, acc * r + d = (d : Nat) + r * acc := by
      intro d acc
      rw [Nat.mul_comm, Nat.add_comm]
    calc (baseDigits r m).foldl (fun acc d => acc * r + d) 0
        = (Nat.digits r m).foldr (fun d acc => acc * r + d) 0 := by
          rw [baseDigits_of_ne_zero hm, List.foldl_reverse]
      _ = Nat.ofDigits r (Nat.digits r m) := by
          simp only [hstep, Nat.ofDigits_eq_foldr, Nat.cast_id]
      _ = m := Nat.ofDigits_digits r m

/-- The last digit of a number of more than one digit is its rest, and the others are the digits of its
quotient. -/
theorem baseDigits_eq_append (hr : 1 < r) (hm : r ≤ m) :
    baseDigits r m = baseDigits r (m / r) ++ [m % r] := by
  have hquotient : m / r ≠ 0 := by
    have hpos := Nat.div_pos hm (by omega)
    omega
  rw [baseDigits_of_ne_zero (by omega), baseDigits_of_ne_zero hquotient,
    Nat.digits_def' hr (by omega), List.reverse_cons]

theorem baseDigits_of_lt (hm : m < r) : baseDigits r m = [m] := by
  by_cases hzero : m = 0
  · rw [hzero, baseDigits_zero]
  · rw [baseDigits_of_ne_zero hzero, Nat.digits_of_lt r m hzero hm, List.reverse_singleton]

/-- The decimal text of a natural number consists of its digits. -/
theorem forall₂_digits (m : Nat) : List.Forall₂ IsDigitOf (baseDigits 10 m) (digits m) := by
  induction m using Nat.strongRecOn with
  | ind m ih =>
    unfold digits
    by_cases hm : m < 10
    · rw [baseDigits_of_lt hm, Nat.toDigits_of_lt_base hm]
      exact .cons (isDigitOf_digitChar hm) .nil
    · have hlast := isDigitOf_digitChar (Nat.mod_lt m (by omega : 10 > 0))
      rw [baseDigits_eq_append (by omega) (by omega), Nat.toDigits_of_base_le (by omega) (by omega)]
      exact List.rel_append (ih (m / 10) (by omega)) (.cons hlast .nil)

/-- The decimal text of an integer is written in the base ten. -/
theorem writtenInt_text (k : Int64) : WrittenInt 10 k.toInt (Value.integer k).text.toList := by
  refine ⟨digits k.toInt.natAbs, ?_, forall₂_digits k.toInt.natAbs⟩
  rw [Value.text, String.toList_ofList, intText]

end Base

end Verdict
