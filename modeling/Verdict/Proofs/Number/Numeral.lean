import Mathlib.Data.List.TakeDrop
import Verdict.Proofs.Value.Numeric
import Verdict.Token.Literal

namespace Verdict

section Digits

variable {c : Char} {ds rest : List Char}

theorem toNat_of_isDigit (h : c.isDigit = true) : 48 ≤ c.toNat ∧ c.toNat ≤ 57 :=
  Char.isDigit_iff_toNat.mp h

theorem ne_of_isDigit {d : Char} (h : c.isDigit = true) (hd : d.isDigit = false) : c ≠ d := by
  rintro rfl
  simp [h] at hd

theorem mem_of_isDigit (h : c.isDigit = true) : c ∈ "0123456789".toList := by
  have hc := toNat_of_isDigit h
  have hall : ∀ k < 58, 48 ≤ k → Char.ofNat k ∈ "0123456789".toList := by decide
  have hmem := hall c.toNat (by omega) hc.1
  rwa [Char.ofNat_toNat] at hmem

theorem isBlank_of_isDigit (h : c.isDigit = true) : isBlank c = false := by
  have hc := toNat_of_isDigit h
  simp only [isBlank, Bool.or_eq_false_iff, Bool.and_eq_false_iff, decide_eq_false_iff_not,
    beq_eq_false_iff_ne]
  omega

/-- Only the upper-case letters of ASCII have a lower case that is another character. -/
theorem toLower_cases (c : Char) :
    65 ≤ c.toNat ∧ c.toNat ≤ 90 ∧ c.toLower.toNat = c.toNat + 32 ∨
      (c.toNat < 65 ∨ 90 < c.toNat) ∧ c.toLower = c := by
  by_cases hupper : c.val ≥ 'A'.val ∧ c.val ≤ 'Z'.val
  · have hlow : 65 ≤ c.toNat := UInt32.le_iff_toNat_le.mp hupper.1
    have hhigh : c.toNat ≤ 90 := UInt32.le_iff_toNat_le.mp hupper.2
    have hlower : c.toLower.val = c.val + ('a'.val - 'A'.val) := congrArg Char.val (dif_pos hupper)
    have hsum : c.toLower.toNat = (c.toNat + 32) % 2 ^ 32 := congrArg UInt32.toNat hlower
    exact .inl ⟨hlow, hhigh, by omega⟩
  · have houtside : ¬ (65 ≤ c.toNat ∧ c.toNat ≤ 90) := fun h =>
      hupper ⟨UInt32.le_iff_toNat_le.mpr h.1, UInt32.le_iff_toNat_le.mpr h.2⟩
    exact .inr ⟨by omega, dif_neg hupper⟩

theorem toLower_of_isDigit (h : c.isDigit = true) : c.toLower = c := by
  have hc := toNat_of_isDigit h
  rcases toLower_cases c with hupper | hother
  · omega
  · exact hother.2

theorem isDecimalDigit_of_isDigit (h : c.isDigit = true) : isDecimalDigit c = true := by
  have hc := toNat_of_isDigit h
  rw [isDecimalDigit, if_pos (by omega), h]

theorem digit?_of_isDigit (h : c.isDigit = true) : digit? 10 c = some (digitValue c) := by
  have hc := toNat_of_isDigit h
  have hvalue : digitValue c < 10 := by
    change c.toNat - 48 < 10
    omega
  simp [digit?, h, hvalue]

/-- A text is cut where its first piece ends, if the test holds in the piece and fails after it. -/
theorem span_append {p : Char → Bool} (hds : ∀ c ∈ ds, p c = true)
    (hrest : ∀ c, rest.head? = some c → p c = false) : (ds ++ rest).span p = (ds, rest) := by
  have hnone : rest.takeWhile p = [] ∧ rest.dropWhile p = rest := by
    cases rest with
    | nil => exact ⟨rfl, rfl⟩
    | cons c rest => simp [hrest c rfl]
  rw [List.span_eq_takeWhile_dropWhile, List.takeWhile_append_of_pos hds,
    List.dropWhile_append_of_pos hds, hnone.1, hnone.2, List.append_nil]

theorem span_self {p : Char → Bool} (hds : ∀ c ∈ ds, p c = true) : ds.span p = (ds, []) := by
  have hspan : (ds ++ []).span p = (ds, []) := span_append hds nofun
  rwa [List.append_nil] at hspan

theorem le_readDigits (n : Nat) (ds : List Char) : n ≤ readDigits n ds := by
  induction ds generalizing n with
  | nil => exact Nat.le_refl n
  | cons c ds ih =>
    have hstep := ih (n * 10 + digitValue c)
    change n ≤ readDigits (n * 10 + digitValue c) ds
    omega

end Digits

theorem twoPow_lt_twoPow {m n : Nat} (h : m < n) : twoPow m < twoPow n :=
  Nat.pow_lt_pow_right Nat.one_lt_two h

/-- Rounding stays within a power of two. -/
theorem roundUnits_le {num den k : Nat} (hk : 53 ≤ k) (h : num / den < twoPow k) :
    roundUnits num den ≤ twoPow k := by
  have hshift : (num / den).log2 - 52 ≤ k - 53 := by
    by_cases hzero : num / den = 0
    · simp [hzero]
    · have hlog := log2_lt_of_lt_twoPow hzero h
      omega
  calc roundUnits num den
      ≤ twoPow 53 * twoPow ((num / den).log2 - 52) :=
        Nat.mul_le_mul_right _ (roundUnits_mantissa_le num den)
    _ ≤ twoPow 53 * twoPow (k - 53) := Nat.mul_le_mul_left _ (twoPow_le_twoPow hshift)
    _ = twoPow k := by rw [← twoPow_add, Nat.add_sub_cancel' hk]

namespace Double

variable {negative : Bool} {num den k n : Nat}

/-- What holds of every rounded number, and of an infinite one, holds of a decimal as well. -/
theorem ofDecimal_cases {P : Double → Prop} (hinfinite : P (infinite negative))
    (hunits : ∀ num den, P (ofUnits negative num den)) (digits : Nat) (exponent : Int) :
    P (ofDecimal negative digits exponent) := by
  unfold ofDecimal
  split
  next => exact hunits _ _
  next =>
    split
    next => exact hinfinite
    next =>
      split
      next => exact hunits _ _
      next => split <;> exact hunits _ _

theorem isNaN_ofDecimal (negative : Bool) (digits : Nat) (exponent : Int) :
    (ofDecimal negative digits exponent).isNaN = false :=
  ofDecimal_cases (P := fun x => x.isNaN = false) rfl (isNaN_ofUnits negative) digits exponent

theorem isFinite_ofUnits (hk : 53 ≤ k) (hlimit : k < 2098) (h : num / den < twoPow k) :
    (ofUnits negative num den).isFinite = true := by
  have hlt : roundUnits num den < unitLimit :=
    Nat.lt_of_le_of_lt (roundUnits_le hk h) (twoPow_lt_twoPow hlimit)
  rw [ofUnits, dif_pos hlt]
  rfl

/-- Numbers of few bits before the point are far from the end of the range. -/
theorem isFinite_ofDecimal (hk : k < 1024) (h : n < twoPow k) (places : Nat) :
    (ofDecimal negative n (-places)).isFinite = true := by
  have hunits : n * unitsPerOne < twoPow (k + 1074) := by
    rw [twoPow_add]
    exact Nat.mul_lt_mul_of_pos_right h (twoPow_pos 1074)
  have hzero : (ofUnits negative 0 1).isFinite = true := by
    refine isFinite_ofUnits (k := k + 1074) (by omega) (by omega) ?_
    rw [Nat.zero_div]
    exact twoPow_pos _
  have hone : tenPow (-(places : Int)).toNat = 1 := by
    have hexponent : (-(places : Int)).toNat = 0 := by omega
    rw [hexponent]
    rfl
  unfold ofDecimal
  split
  next => exact hzero
  next =>
    rw [if_neg (by omega)]
    split
    next => exact hzero
    next =>
      split
      next =>
        rw [hone, Nat.mul_one]
        refine isFinite_ofUnits (k := k + 1074) (by omega) (by omega) ?_
        rwa [Nat.div_one]
      next =>
        refine isFinite_ofUnits (k := k + 1074) (by omega) (by omega) ?_
        exact Nat.lt_of_le_of_lt (Nat.div_le_self _ _) hunits

end Double

namespace Decimal

variable {m scale : Nat} {digit : Bool} {ds : List Char}

/-- Digits before a point are read as one whole number, if there is room for it. -/
theorem readDigits?_whole (hds : ∀ c ∈ ds, c.isDigit = true)
    (hlimit : Verdict.readDigits m ds < mantissaLimit) (rest : List Char) :
    readDigits? ⟨m, 0, false, digit⟩ (ds ++ rest) =
      readDigits? ⟨Verdict.readDigits m ds, 0, false, digit || !ds.isEmpty⟩ rest := by
  induction ds generalizing m digit with
  | nil => simp [Verdict.readDigits]
  | cons c ds ih =>
    have hnext : Verdict.readDigits (m * 10 + digitValue c) ds < mantissaLimit := hlimit
    have hroom : ¬ mantissaLimit ≤ m * 10 + digitValue c :=
      Nat.not_le.mpr (Nat.lt_of_le_of_lt (le_readDigits _ ds) hnext)
    have hrest := @ih _ true (fun d hd => hds d (List.mem_cons_of_mem c hd)) hnext
    rw [Bool.true_or] at hrest
    simp only [List.cons_append, readDigits?, digit?_of_isDigit (hds c List.mem_cons_self),
      Bool.false_and, Bool.false_eq_true, hroom, if_false, hrest, List.isEmpty_cons,
      Bool.not_false, Bool.or_true]
    rfl

/-- Digits after a point are read to the end, if there is room for them and for their number. -/
theorem readDigits?_places (hds : ∀ c ∈ ds, c.isDigit = true)
    (hscale : scale + ds.length ≤ maxScale)
    (hlimit : Verdict.readDigits m ds < mantissaLimit) :
    readDigits? ⟨m, scale, true, true⟩ ds =
      some (Verdict.readDigits m ds, scale + ds.length) := by
  induction ds generalizing m scale with
  | nil => rfl
  | cons c ds ih =>
    have hnext : Verdict.readDigits (m * 10 + digitValue c) ds < mantissaLimit := hlimit
    have hroom : ¬ mantissaLimit ≤ m * 10 + digitValue c :=
      Nat.not_le.mpr (Nat.lt_of_le_of_lt (le_readDigits _ ds) hnext)
    rw [List.length_cons] at hscale
    have hplace : scale ≠ maxScale := by omega
    have hrest := @ih _ (scale + 1) (fun d hd => hds d (List.mem_cons_of_mem c hd)) (by omega)
      hnext
    simp only [readDigits?, digit?_of_isDigit (hds c List.mem_cons_self), Bool.true_and, hplace,
      decide_false, Bool.false_or, hroom, if_false, if_true, hrest]
    rw [List.length_cons, Nat.add_right_comm]
    rfl

end Decimal

/-- The text of a number. -/
structure Numeral where
  negative : Bool
  whole : List Char
  /-- The digits after the point, which is not there without them. -/
  fraction : List Char
  whole_ne_nil : whole ≠ []
  all_isDigit : (whole ++ fraction).all Char.isDigit = true

namespace Numeral

variable (n : Numeral)

def sign : List Char := if n.negative then ['-'] else []

/-- The point and the digits after it. -/
def point : List Char := if n.fraction = [] then [] else '.' :: n.fraction

def text : List Char := n.sign ++ (n.whole ++ n.point)

/-- The digits, as one whole number. -/
def mantissa : Nat := readDigits 0 (n.whole ++ n.fraction)

/-- The digits with the sign. -/
def signed : Int := if n.negative then -n.mantissa else n.mantissa

/-- The nearest floating-point number. -/
def double : Double := .ofDecimal n.negative n.mantissa (-n.fraction.length)

theorem isDigit_of_mem_whole {c : Char} (h : c ∈ n.whole) : c.isDigit = true :=
  List.all_eq_true.mp n.all_isDigit c (List.mem_append_left _ h)

theorem isDigit_of_mem_fraction {c : Char} (h : c ∈ n.fraction) : c.isDigit = true :=
  List.all_eq_true.mp n.all_isDigit c (List.mem_append_right _ h)

theorem whole_eq_cons : ∃ c ds, n.whole = c :: ds ∧ c.isDigit = true := by
  cases h : n.whole with
  | nil => exact absurd h n.whole_ne_nil
  | cons c ds => exact ⟨c, ds, rfl, n.isDigit_of_mem_whole (by simp [h])⟩

theorem text_ne_nil : n.text ≠ [] := by
  obtain ⟨c, ds, hwhole, _⟩ := n.whole_eq_cons
  simp [text, hwhole]

theorem not_isDigit_of_head?_point {c : Char} (h : n.point.head? = some c) :
    c.isDigit = false := by
  unfold point at h
  split at h
  next => cases h
  next => cases h; rfl

theorem takeSign_text : takeSign n.text = (n.negative, n.whole ++ n.point) := by
  unfold text sign
  split
  next h => rw [h]; rfl
  next h =>
    obtain ⟨c, ds, hwhole, hc⟩ := n.whole_eq_cons
    have hminus : c ≠ '-' := ne_of_isDigit hc rfl
    have hplus : c ≠ '+' := ne_of_isDigit hc rfl
    rw [hwhole, Bool.eq_false_iff.mpr h]
    simp [takeSign, hminus, hplus]

theorem span_body : (n.whole ++ n.point).span Char.isDigit = (n.whole, n.point) :=
  span_append (fun _ => n.isDigit_of_mem_whole) fun _ => n.not_isDigit_of_head?_point

/-- A numeral is determined by its text. -/
theorem text_injective {n m : Numeral} (h : n.text = m.text) : n = m := by
  have hsign := n.takeSign_text
  rw [h, m.takeSign_text] at hsign
  obtain ⟨hnegative, hbody⟩ := Prod.mk.inj hsign
  have hspan := n.span_body
  rw [← hbody, m.span_body] at hspan
  obtain ⟨hwhole, hpoint⟩ := Prod.mk.inj hspan
  have hfraction : m.fraction = n.fraction := by
    unfold point at hpoint
    split at hpoint <;> split at hpoint <;> simp_all
  cases n
  cases m
  simp_all

/-- A numeral is an integer of 64 bits if it has no point and its number is in the range. -/
theorem readInteger?_text : Literal.readInteger? n.text =
    if n.fraction = [] then int64? n.signed else none := by
  rw [Literal.readInteger?, n.takeSign_text]
  have hdigits : n.whole.all Char.isDigit = true :=
    List.all_eq_true.mpr fun c => n.isDigit_of_mem_whole
  have hempty : n.whole.isEmpty = false := List.isEmpty_eq_false_iff.mpr n.whole_ne_nil
  have hpoint : '.'.isDigit = false := rfl
  by_cases h : n.fraction = []
  · simp [point, signed, mantissa, h, hdigits, hempty]
  · simp [point, h, hpoint]

theorem ofText?_text : Double.ofText? n.text = some n.double := by
  obtain ⟨c, ds, hwhole, hc⟩ := n.whole_eq_cons
  have hword : ∀ d w, d.isDigit = false → (n.whole ++ n.point).map Char.toLower ≠ d :: w := by
    intro d w hd heq
    rw [hwhole] at heq
    have hhead : c.toLower = d := (List.cons.inj heq).1
    exact ne_of_isDigit hc hd (by rw [← hhead, toLower_of_isDigit hc])
  have hpoint : Double.takeFraction n.point = (n.fraction, []) := by
    unfold point
    split
    next h => rw [h]; rfl
    next =>
      exact span_self fun c => n.isDigit_of_mem_fraction
  have hmantissa : readDigits (readDigits 0 n.whole) n.fraction = n.mantissa :=
    List.foldl_append.symm
  have hempty : n.whole.isEmpty = false := List.isEmpty_eq_false_iff.mpr n.whole_ne_nil
  simp only [Double.ofText?, n.takeSign_text, hword 'i' _ rfl, hword 'n' _ rfl, or_self, if_false,
    Double.readDecimal?, n.span_body, hpoint, hempty, Bool.false_and, Bool.false_eq_true,
    Double.readExponent?, Option.map_some, hmantissa, Int.zero_sub, double]

theorem mem_text {c : Char} (h : c ∈ n.text) : c = '-' ∨ c = '.' ∨ c.isDigit = true := by
  rcases List.mem_append.mp h with hsign | hbody
  · unfold sign at hsign
    split at hsign
    next => exact .inl (List.mem_singleton.mp hsign)
    next => cases hsign
  · rcases List.mem_append.mp hbody with hwhole | hpoint
    · exact .inr (.inr (n.isDigit_of_mem_whole hwhole))
    · unfold point at hpoint
      split at hpoint
      next => cases hpoint
      next =>
        rcases List.mem_cons.mp hpoint with rfl | hfraction
        · exact .inr (.inl rfl)
        · exact .inr (.inr (n.isDigit_of_mem_fraction hfraction))

theorem not_mem_text {c : Char} (hminus : c ≠ '-') (hpoint : c ≠ '.')
    (hdigit : c.isDigit = false) : c ∉ n.text := by
  intro hmem
  rcases n.mem_text hmem with hc | hc | hc
  · exact hminus hc
  · exact hpoint hc
  · simp [hdigit] at hc

/-- The texts of a numeral: its own, and the one with a plus sign if it has no sign. -/
def Spells (t : List Char) : Prop :=
  t = n.text ∨ n.negative = false ∧ t = '+' :: n.text

instance (t : List Char) : Decidable (n.Spells t) := inferInstanceAs (Decidable (_ ∨ _))

section Spells

variable {n} {t : List Char}

theorem Spells.ne_nil (h : n.Spells t) : t ≠ [] := by
  rcases h with rfl | ⟨_, rfl⟩
  · exact n.text_ne_nil
  · exact List.cons_ne_nil _ _

/-- No sign is left behind a plus sign. -/
theorem Spells.takeSign_eq (h : n.Spells t) : takeSign t = takeSign n.text := by
  rcases h with rfl | ⟨hsign, rfl⟩
  · rfl
  · have htext : n.text = n.whole ++ n.point := by simp [text, sign, hsign]
    rw [n.takeSign_text, hsign, htext]
    rfl

/-- A numeral is none of the words. -/
theorem Spells.ne_of_mem (h : n.Spells t) {w : List Char} (hw : 'I' ∈ w) : t ≠ w := by
  have hletter : 'I' ∉ n.text := n.not_mem_text (by decide) (by decide) rfl
  rintro rfl
  rcases h with rfl | ⟨_, rfl⟩
  · exact hletter hw
  · exact hletter (List.mem_of_ne_of_mem (by decide) hw)

theorem Spells.ofText?_eq (h : n.Spells t) : Double.ofText? t = some n.double := by
  rw [← n.ofText?_text, Double.ofText?, Double.ofText?, h.takeSign_eq]

theorem Spells.decimal_eq (h : n.Spells t) : Decimal.ofText? t = Decimal.ofText? n.text := by
  rw [Decimal.ofText?, Decimal.ofText?, h.takeSign_eq]

end Spells

/-- Nothing is cut off the ends of a numeral. -/
theorem trim_text : trim n.text = n.text := by
  have hblank : ∀ s : List Char, (∀ c ∈ s, c ∈ n.text) → s.dropWhile isBlank = s := by
    intro s hs
    cases s with
    | nil => rfl
    | cons c s =>
      have hc : isBlank c = false := by
        rcases n.mem_text (hs c List.mem_cons_self) with rfl | rfl | hdigit
        · rfl
        · rfl
        · exact isBlank_of_isDigit hdigit
      rw [List.dropWhile_cons_of_neg (by simp [hc])]
  rw [trim, trimEnd, trimStart, hblank _ fun c => id, dropLastWhile,
    hblank _ fun c => List.mem_reverse.mp, List.reverse_reverse]

section Room

variable (hscale : n.fraction.length ≤ maxScale) (hlimit : n.mantissa < mantissaLimit)
include hscale hlimit

theorem readDigits?_body :
    Decimal.readDigits? ⟨0, 0, false, false⟩ (n.whole ++ n.point) =
      some (n.mantissa, n.fraction.length) := by
  have hmantissa : readDigits (readDigits 0 n.whole) n.fraction = n.mantissa :=
    List.foldl_append.symm
  have hwhole : readDigits 0 n.whole < mantissaLimit := by
    have hle := le_readDigits (readDigits 0 n.whole) n.fraction
    omega
  have hempty : n.whole.isEmpty = false := List.isEmpty_eq_false_iff.mpr n.whole_ne_nil
  rw [Decimal.readDigits?_whole (fun c => n.isDigit_of_mem_whole) hwhole, hempty]
  unfold point
  split
  next hn =>
    rw [hn] at hmantissa ⊢
    rw [← hmantissa]
    rfl
  next =>
    have hplaces : Decimal.readDigits? ⟨readDigits 0 n.whole, 0, true, true⟩ n.fraction =
        some (n.mantissa, n.fraction.length) := by
      rw [Decimal.readDigits?_places (fun c => n.isDigit_of_mem_fraction) (by omega)
        (hmantissa ▸ hlimit), hmantissa, Nat.zero_add]
    rw [← hplaces]
    rfl

/-- A numeral has a decimal that is its number, if there is room for its digits. -/
theorem decimal_text :
    ∃ x, Decimal.ofText? n.text = some x ∧ x.mantissa = n.signed ∧
      x.scale = n.fraction.length := by
  have hspan : (n.whole ++ n.point).span (fun c => c != 'e' && c != 'E') =
      (n.whole ++ n.point, []) := by
    refine span_self fun c hc => ?_
    rcases n.mem_text (List.mem_append_right _ hc) with rfl | rfl | hdigit
    · rfl
    · rfl
    · simp [ne_of_isDigit hdigit (d := 'e') rfl, ne_of_isDigit hdigit (d := 'E') rfl]
  have hfits : n.signed.natAbs < mantissaLimit ∧ n.fraction.length ≤ maxScale := by
    refine ⟨?_, hscale⟩
    unfold signed
    split <;> simpa using hlimit
  refine ⟨⟨_, _, hfits.1, hfits.2⟩, ?_, rfl, rfl⟩
  rw [Decimal.ofText?, n.takeSign_text]
  simp only [Decimal.readUnsigned?, hspan, n.readDigits?_body hscale hlimit, Option.bind_some]
  exact dif_pos hfits

end Room

end Numeral

end Verdict
