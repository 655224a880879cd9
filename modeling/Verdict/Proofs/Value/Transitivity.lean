import Mathlib.Data.List.Pairwise
import Verdict.Proofs.Number.DecimalText
import Verdict.Proofs.Value.Comparison

namespace Verdict

namespace Value

def isNumber : Value → Bool
  | integer _ | float _ => true
  | _ => false

def isText : Value → Bool
  | string _ => true
  | _ => false

/-- An integer, a floating-point number or a text, and not NaN as a number. -/
def IsQuantity (v : Value) : Prop :=
  (v.isNumber = true ∨ v.isText = true) ∧ v.toNumber.isNaN = false

/-- One value is compared as less than another, or as equal to it. -/
def AtMost (a b : Value) : Prop :=
  a.looseCompare b = some .lt ∨ a.looseCompare b = some .eq

/-- A text without a decimal comes between two values that have one. As decimals the first is at
most the second; as floating-point numbers it is at least the text, and the text at least the
second. And the two are not level in both. -/
def Torn (t a b : Value) : Prop :=
  t.isText = true ∧ t.toDecimal? = none ∧
    b.toNumber.rank ≤ t.toNumber.rank ∧ t.toNumber.rank ≤ a.toNumber.rank ∧
    ∃ x ∈ a.toDecimal?, ∃ y ∈ b.toDecimal?, (x.compareValue y).isLE = true ∧
      ¬ (x.compareValue y = .eq ∧ a.toNumber.rank = b.toNumber.rank)

instance (v : Value) : Decidable v.IsQuantity := inferInstanceAs (Decidable (_ ∧ _))

instance (a b : Value) : Decidable (a.AtMost b) := inferInstanceAs (Decidable (_ ∨ _))

instance (t a b : Value) : Decidable (Torn t a b) := inferInstanceAs (Decidable (_ ∧ _))

/-- The measure by which two values are compared as numbers, decimals where both have one. Both
measures agree about a number that is too large for a decimal, but not about a text without one. -/
def Below (a b : Value) : Prop :=
  match a.toDecimal?, b.toDecimal? with
  | some x, some y => x.value ≤ y.value
  | _, _ => a.toNumber.rank ≤ b.toNumber.rank

section Measures

variable {a b v : Value} {d : Decimal}

theorem eq_string_of_isText (h : v.isText = true) : ∃ s, v = string s := by
  cases v with
  | string s => exact ⟨s, rfl⟩
  | _ => cases h

theorem IsQuantity.primitive_eq (h : v.IsQuantity) : v.primitive = v := by
  cases v with
  | array _ | regex _ => simp [IsQuantity, isNumber, isText] at h
  | _ => rfl

theorem looseCompare_eq (ha : a.IsQuantity) (hb : b.IsQuantity)
    (htexts : ¬ (a.isText = true ∧ b.isText = true)) :
    a.looseCompare b = compareNumbers a b := by
  change scalarCompare a.primitive b.primitive = _
  rw [ha.primitive_eq, hb.primitive_eq]
  by_cases htext : a.isText = true
  · refine scalarCompare_of_right ?_ a
    rintro s rfl
    exact htexts ⟨htext, rfl⟩
  · refine scalarCompare_of_left ?_ b
    rintro s rfl
    exact htext rfl

theorem below_iff_value {x y : Decimal} (hx : a.toDecimal? = some x) (hy : b.toDecimal? = some y) :
    a.Below b ↔ x.value ≤ y.value := by
  rw [Below, hx, hy]

theorem below_iff_rank (h : a.toDecimal? = none ∨ b.toDecimal? = none) :
    a.Below b ↔ a.toNumber.rank ≤ b.toNumber.rank := by
  rcases h with h | h
  · rw [Below, h]
  · rw [Below, h]
    cases a.toDecimal? <;> rfl

theorem Below.refl (v : Value) : v.Below v := by
  unfold Below
  cases v.toDecimal? with
  | none => exact Int.le_refl _
  | some x => exact le_refl x.value

theorem atMost_iff (ha : a.IsQuantity) (hb : b.IsQuantity)
    (htexts : a.isText = true → b.isText = true → a = b) : a.AtMost b ↔ a.Below b := by
  by_cases hboth : a.isText = true ∧ b.isText = true
  · obtain rfl := htexts hboth.1 hboth.2
    obtain ⟨s, rfl⟩ := eq_string_of_isText hboth.1
    have heq : (string s).looseCompare (string s) = some .eq :=
      congrArg some (Std.ReflCmp.compare_self (a := s))
    exact iff_of_true (.inr heq) (.refl _)
  · have hle : ∀ r : Ordering, some r = some .lt ∨ some r = some .eq ↔ r.isLE = true := by decide
    have hrank :
        a.toNumber.compare? b.toNumber = some (compare a.toNumber.rank b.toNumber.rank) := by
      rw [Double.compare?, ha.2, hb.2]
      rfl
    rw [AtMost, looseCompare_eq ha hb hboth, compareNumbers_eq, ha.2, hb.2, Below, hrank]
    cases a.toDecimal? with
    | none => exact (hle _).trans Int.isLE_compare
    | some x =>
      cases b.toDecimal? with
      | none => exact (hle _).trans Int.isLE_compare
      | some y => exact (hle _).trans Decimal.isLE_compareValue_iff

end Measures

section Bounds

open Decimal

variable {a b t v : Value} {d x y : Decimal}

/-- A number that has a decimal is within the bounds of both measures. -/
theorem number_bounds (hv : v.isNumber = true) (hd : v.toDecimal? = some d) :
    |d.value| ≤ greatestDouble ∧ v.toNumber.rank.natAbs < unitBound := by
  cases v with
  | integer n =>
    obtain ⟨x, hx, hxm, hxs⟩ := ofInt?_toInt n
    obtain rfl : d = x := Option.some.inj (hd.symm.trans hx)
    have hn := natAbs_toInt_lt n
    constructor
    · rw [abs_value_le_iff, hxm, hxs, tenPow_zero, Nat.mul_one]
      exact Nat.le_trans (Nat.le_of_lt hn) (by decide)
    · exact natAbs_rank_ofInt_lt (by decide) hn
  | float x =>
    cases x with
    | nan => cases hd
    | infinite _ => cases hd
    | finite negative m =>
      have hroom : m.units < unitBound := by
        by_contra hfull
        cases hd.symm.trans (ofDouble?_of_le negative (Nat.not_lt.mp hfull))
      obtain ⟨x, hx, hvalue⟩ := ofDouble?_of_lt negative hroom
      obtain rfl : d = x := Option.some.inj (hd.symm.trans hx)
      exact ⟨hvalue, by rwa [toNumber, Double.natAbs_rank_finite]⟩
  | _ => cases hv

/-- A number without a decimal is too large for one. -/
theorem number_far (hv : v.isNumber = true) (hnan : v.toNumber.isNaN = false)
    (hd : v.toDecimal? = none) : unitBound ≤ v.toNumber.rank.natAbs := by
  cases v with
  | integer n =>
    obtain ⟨x, hx, _⟩ := ofInt?_toInt n
    cases hd.symm.trans hx
  | float x =>
    cases x with
    | nan => cases hnan
    | infinite negative =>
      rw [toNumber, Double.natAbs_rank_infinite]
      exact unitBound_le_unitLimit
    | finite negative m =>
      rw [toNumber, Double.natAbs_rank_finite]
      by_contra hroom
      obtain ⟨x, hx, _⟩ := ofDouble?_of_lt negative (Nat.not_le.mp hroom)
      cases hd.symm.trans hx
  | _ => cases hv

/-- A text is within the bounds of both measures or beyond those of both, on the same side. -/
theorem text_bounds {s : String} (hnan : (string s).toNumber.isNaN = false)
    (hd : (string s).toDecimal? = some d) :
    (|d.value| ≤ greatestDouble → (string s).toNumber.rank.natAbs < unitBound) ∧
      (0 ≤ d.value ∧ 0 ≤ (string s).toNumber.rank ∨
        d.value ≤ 0 ∧ (string s).toNumber.rank ≤ 0) := by
  simp only [toNumber, readNumber] at hnan ⊢
  simp only [toDecimal?] at hd
  split
  next hblank =>
    rw [if_pos hblank] at hd
    obtain ⟨hmantissa, _, _⟩ := ofParts?_eq_some hd
    have hvalue : d.value = 0 := by simp [value, hmantissa]
    rw [hvalue, ← Double.ofInt_natCast 0]
    exact ⟨fun _ => natAbs_rank_ofInt_lt (k := 0) (by decide) (by decide),
      (le_total 0 _).imp (⟨le_refl 0, ·⟩) (⟨le_refl 0, ·⟩)⟩
  next hbody =>
    rw [if_neg hbody] at hnan hd
    split
    next hword =>
      exfalso
      rcases hword with hword | hword <;> rw [hword] at hd <;> cases hd
    next hword =>
      rw [if_neg hword] at hnan
      split
      next hminus =>
        rw [hminus] at hd
        cases hd
      next hminus =>
        rw [if_neg hminus] at hnan
        split at hnan
        next x hx =>
          split at hnan
          next hfinite =>
            obtain ⟨hvalue, hsign⟩ := ofText?_bounds hx hfinite hd
            simp only [hfinite, if_true]
            exact ⟨fun h => Nat.lt_of_le_of_lt (hvalue h) greatestDouble_lt_unitBound, hsign⟩
          next => cases hnan
        next => cases hnan

/-- A quantity beyond the bound as a floating-point number is a text beyond it as a decimal. -/
theorem value_far (hv : v.IsQuantity) (hd : v.toDecimal? = some d) :
    (unitBound ≤ v.toNumber.rank → greatestDouble < d.value) ∧
      (v.toNumber.rank ≤ -unitBound → d.value < -greatestDouble) := by
  have hpos : 0 < unitBound := Nat.mul_pos (twoPow_pos 96) unitsPerOne_pos
  rcases hv.1 with hnumber | htext
  · have hrank := (number_bounds hnumber hd).2
    exact ⟨fun h => by omega, fun h => by omega⟩
  · obtain ⟨s, rfl⟩ := eq_string_of_isText htext
    obtain ⟨hvalue, hsign⟩ := text_bounds hv.2 hd
    constructor
    · intro hrank
      by_contra hclose
      have hlow : 0 ≤ d.value := hsign.elim And.left fun h => by omega
      rw [abs_of_nonneg hlow] at hvalue
      have hnear := hvalue (not_lt.mp hclose)
      omega
    · intro hrank
      by_contra hclose
      have hhigh : d.value ≤ 0 := hsign.elim (fun h => by omega) And.left
      rw [abs_of_nonpos hhigh] at hvalue
      have hnear := hvalue (neg_le.mp (not_lt.mp hclose))
      omega

theorem isText_of_far (hv : v.IsQuantity) (hd : v.toDecimal? = some d)
    (hfar : greatestDouble < d.value ∨ d.value < -greatestDouble) : v.isText = true := by
  refine hv.1.resolve_left fun hnumber => ?_
  have hvalue := abs_le.mp (number_bounds hnumber hd).1
  rcases hfar with hfar | hfar
  · exact absurd hvalue.2 (not_le.mpr hfar)
  · exact absurd hvalue.1 (not_le.mpr hfar)

/-- A number without a decimal tears no two values apart: both would lie beyond the bound on its
side, where of all that has a decimal there are only texts. -/
theorem eq_of_between (ht : t.IsQuantity) (hnumber : t.isText = false) (hnone : t.toDecimal? = none)
    (ha : a.IsQuantity) (hb : b.IsQuantity) (htexts : a.isText = true → b.isText = true → a = b)
    (hx : a.toDecimal? = some x) (hy : b.toDecimal? = some y) (hle : x.value ≤ y.value)
    (hlow : b.toNumber.rank ≤ t.toNumber.rank) (hhigh : t.toNumber.rank ≤ a.toNumber.rank) :
    a = b := by
  have hfar := number_far (ht.1.resolve_right (by simp [hnumber])) ht.2 hnone
  by_cases hpos : 0 ≤ t.toNumber.rank
  · have ha' : greatestDouble < x.value := (value_far ha hx).1 (by omega)
    have hb' : greatestDouble < y.value := lt_of_lt_of_le ha' hle
    exact htexts (isText_of_far ha hx (.inl ha')) (isText_of_far hb hy (.inl hb'))
  · have hb' : y.value < -greatestDouble := (value_far hb hy).2 (by omega)
    have ha' : x.value < -greatestDouble := lt_of_le_of_lt hle hb'
    exact htexts (isText_of_far ha hx (.inr ha')) (isText_of_far hb hy (.inr hb'))

end Bounds

section Transitivity

variable {a b c t : Value} {x y : Decimal} {vs : List Value}

/-- Quantities among which there is at most one text, and none that tears two of them apart. -/
structure Whole (vs : List Value) : Prop where
  quantity : ∀ v ∈ vs, v.IsQuantity
  text : ∀ v ∈ vs, ∀ w ∈ vs, v.isText = true → w.isText = true → v = w
  torn : ∀ t ∈ vs, ∀ v ∈ vs, ∀ w ∈ vs, ¬ Torn t v w

theorem Whole.level (h : Whole vs) (ht : t ∈ vs) (ha : a ∈ vs) (hb : b ∈ vs)
    (hnone : t.toDecimal? = none) (hx : a.toDecimal? = some x) (hy : b.toDecimal? = some y)
    (hle : x.value ≤ y.value) (hlow : b.toNumber.rank ≤ t.toNumber.rank)
    (hhigh : t.toNumber.rank ≤ a.toNumber.rank) :
    x.value = y.value ∧ a.toNumber.rank = b.toNumber.rank := by
  by_cases htext : t.isText = true
  · by_contra hlevel
    rw [← Decimal.compareValue_eq_eq_iff] at hlevel
    exact h.torn t ht a ha b hb ⟨htext, hnone, hlow, hhigh, x, hx, y, hy,
      Decimal.isLE_compareValue_iff.mpr hle, hlevel⟩
  · have heq : a = b := eq_of_between (h.quantity t ht) (Bool.eq_false_iff.mpr htext) hnone
      (h.quantity a ha) (h.quantity b hb) (h.text a ha b hb) hx hy hle hlow hhigh
    subst heq
    exact ⟨congrArg Decimal.value (Option.some.inj (hx.symm.trans hy)), rfl⟩

/-- Of three values, the pair that has decimals is compared by them, the others are not: what the
decimals say is then what the floating-point numbers say. -/
theorem Whole.below_trans (h : Whole vs) (ha : a ∈ vs) (hb : b ∈ vs) (hc : c ∈ vs)
    (hab : a.Below b) (hbc : b.Below c) : a.Below c := by
  cases hx : a.toDecimal? with
  | none =>
    rw [below_iff_rank (.inl hx)] at hab ⊢
    by_cases hrank : b.toDecimal? = none ∨ c.toDecimal? = none
    · rw [below_iff_rank hrank] at hbc
      exact Int.le_trans hab hbc
    · obtain ⟨⟨y, hy⟩, ⟨z, hz⟩⟩ := (not_or.mp hrank).imp Option.ne_none_iff_exists'.mp
        Option.ne_none_iff_exists'.mp
      rw [below_iff_value hy hz] at hbc
      by_contra hlt
      have hlevel := h.level ha hb hc hx hy hz hbc (by omega) hab
      omega
  | some x =>
    cases hy : b.toDecimal? with
    | none =>
      rw [below_iff_rank (.inr hy)] at hab
      rw [below_iff_rank (.inl hy)] at hbc
      cases hz : c.toDecimal? with
      | none => exact (below_iff_rank (.inr hz)).mpr (Int.le_trans hab hbc)
      | some z =>
        rw [below_iff_value hx hz]
        by_contra hlt
        have hlevel := h.level hb hc ha hy hz hx (le_of_lt (not_le.mp hlt)) hab hbc
        exact hlt (le_of_eq hlevel.1.symm)
    | some y =>
      rw [below_iff_value hx hy] at hab
      cases hz : c.toDecimal? with
      | none =>
        rw [below_iff_rank (.inr hz)] at hbc ⊢
        by_contra hlt
        have hlevel := h.level hc ha hb hz hx hy hab hbc (by omega)
        omega
      | some z =>
        rw [below_iff_value hy hz] at hbc
        exact (below_iff_value hx hz).mpr (le_trans hab hbc)

end Transitivity

end Value

open Value

/-- Of three quantities with at most one text among them, comparison is transitive, in whatever
order they are taken, unless the text has no decimal and tears the two others apart. -/
theorem comparison_transitive_iff (a b c : Value) (ha : a.IsQuantity) (hb : b.IsQuantity)
    (hc : c.IsQuantity)
    (htexts : [a, b, c].Pairwise fun v w => ¬ (v.isText = true ∧ w.isText = true)) :
    (∀ x ∈ [a, b, c], ∀ y ∈ [a, b, c], ∀ z ∈ [a, b, c],
      x.AtMost y → y.AtMost z → x.AtMost z) ↔
    ∀ t ∈ [a, b, c], ∀ x ∈ [a, b, c], ∀ y ∈ [a, b, c], ¬ Torn t x y := by
  have hquantity : ∀ v ∈ [a, b, c], v.IsQuantity := by
    simp only [List.forall_mem_cons]
    exact ⟨ha, hb, hc, nofun⟩
  have htext : ∀ v ∈ [a, b, c], ∀ w ∈ [a, b, c], v.isText = true → w.isText = true → v = w := by
    have hsymm : Std.Symm fun v w : Value => ¬ (v.isText = true ∧ w.isText = true) :=
      ⟨fun _ _ h hboth => h hboth.symm⟩
    intro v hv w hw htv htw
    by_contra hne
    exact htexts.forall hv hw hne ⟨htv, htw⟩
  generalize [a, b, c] = vs at hquantity htext ⊢
  have hiff : ∀ v ∈ vs, ∀ w ∈ vs, (v.AtMost w ↔ v.Below w) := fun v hv w hw =>
    atMost_iff (hquantity v hv) (hquantity w hw) (htext v hv w hw)
  constructor
  · rintro htrans t ht v hv w hw ⟨_, hnone, hlow, hhigh, x, hx, y, hy, hle, htorn⟩
    have hvw := (hiff v hv w hw).mpr
      ((below_iff_value hx hy).mpr (Decimal.isLE_compareValue_iff.mp hle))
    have hwt := (hiff w hw t ht).mpr ((below_iff_rank (.inr hnone)).mpr hlow)
    have htv := (hiff t ht v hv).mpr ((below_iff_rank (.inl hnone)).mpr hhigh)
    -- Each of the three is at most the next, and so the other way round as well.
    have hwv := (below_iff_value hy hx).mp ((hiff w hw v hv).mp (htrans w hw t ht v hv hwt htv))
    have hvt := (below_iff_rank (.inr hnone)).mp
      ((hiff v hv t ht).mp (htrans v hv w hw t ht hvw hwt))
    have htw := (below_iff_rank (.inl hnone)).mp
      ((hiff t ht w hw).mp (htrans t ht v hv w hw htv hvw))
    have hvalue := le_antisymm (Decimal.isLE_compareValue_iff.mp hle) hwv
    exact htorn ⟨Decimal.compareValue_eq_eq_iff.mpr hvalue, by omega⟩
  · intro htorn x hx y hy z hz
    have hwhole : Whole vs := ⟨hquantity, htext, htorn⟩
    rw [hiff x hx y hy, hiff y hy z hz, hiff x hx z hz]
    exact hwhole.below_trans hx hy hz

/-- A text without a decimal between two numbers with one, in the same order either way. -/
theorem comparison_transitive_iff_small :
    let a : Value := .integer 0
    let b : Value := .string "1e-30"
    let c : Value := .float (.ofDecimal false 25 (-1))
    a.IsQuantity ∧ b.IsQuantity ∧ c.IsQuantity ∧ b.toDecimal? = none ∧
      [a, b, c].Pairwise (fun v w => ¬ (v.isText = true ∧ w.isText = true)) ∧
      (∀ t ∈ [a, b, c], ∀ x ∈ [a, b, c], ∀ y ∈ [a, b, c], ¬ Torn t x y) ∧
      a.AtMost b ∧ b.AtMost c ∧ a.AtMost c := by
  intro a b c
  obtain ⟨ha, hb, hc, hnone, htexts, htorn, hab, hbc⟩ :
      a.IsQuantity ∧ b.IsQuantity ∧ c.IsQuantity ∧ b.toDecimal? = none ∧
        [a, b, c].Pairwise (fun v w => ¬ (v.isText = true ∧ w.isText = true)) ∧
        (∀ t ∈ [a, b, c], ∀ x ∈ [a, b, c], ∀ y ∈ [a, b, c], ¬ Torn t x y) ∧
        a.AtMost b ∧ b.AtMost c := by
    decide +kernel
  have hac : a.AtMost c := (comparison_transitive_iff a b c ha hb hc htexts).mpr htorn
    a (by simp) b (by simp) c (by simp) hab hbc
  exact ⟨ha, hb, hc, hnone, htexts, htorn, hab, hbc, hac⟩

/-- The decimal of a tiny number is rounded to zero, and a text may lie between the two. -/
theorem comparison_not_transitive :
    let a : Value := .float (.ofDecimal false 1 (-29))
    let b : Value := .integer 0
    let c : Value := .string "1e-30"
    a.IsQuantity ∧ b.IsQuantity ∧ c.IsQuantity ∧
      [a, b, c].Pairwise (fun v w => ¬ (v.isText = true ∧ w.isText = true)) ∧
      a.AtMost b ∧ b.AtMost c ∧ ¬ a.AtMost c := by
  decide +kernel

end Verdict
