import Verdict.Proofs.Literal.Number

namespace Verdict

/-- `w` is the longest text with a property that `s` begins with. -/
structure LongestPrefix (P : List Char → Prop) (s w : List Char) : Prop where
  begins : w <+: s
  holds : P w
  length_le : ∀ m, m <+: s → P m → m.length ≤ w.length

section LongestPrefix

variable {P Q : List Char → Prop} {s w m : List Char}

theorem LongestPrefix.unique (hw : LongestPrefix P s w) (hm : LongestPrefix P s m) : w = m := by
  have hle := hm.length_le w hw.begins hw.holds
  have hwm := List.prefix_of_prefix_length_le hw.begins hm.begins hle
  have hge := hw.length_le m hm.begins hm.holds
  exact hwm.eq_of_length (by omega)

/-- A longest text that has a stronger property is the longest with that one. -/
theorem LongestPrefix.strengthen (h : LongestPrefix Q s w) (hw : P w) (hPQ : ∀ m, P m → Q m) :
    LongestPrefix P s w := by
  refine ⟨h.begins, hw, ?_⟩
  intro m hm hP
  exact h.length_le m hm (hPQ m hP)

/-- Nothing that follows can be added to the longest text. -/
theorem LongestPrefix.not_append {after x y : List Char} (h : LongestPrefix P (w ++ after) w)
    (hxy : after = x ++ y) (hne : x ≠ []) : ¬ P (w ++ x) := by
  intro hform
  have hbegins : w ++ x <+: w ++ after := by
    rw [hxy, ← List.append_assoc]
    exact List.prefix_append (w ++ x) y
  have hle := h.length_le _ hbegins hform
  have hpos := List.length_pos_iff.mpr hne
  rw [List.length_append] at hle
  omega

end LongestPrefix

/-- What can stand before a number. -/
def signs : List (List Char) := [[], ['-'], ['+']]

/-- `x` does not begin with a sign. -/
def Signless (x : List Char) : Prop := ∀ c, x.head? = some c → c ≠ '-' ∧ c ≠ '+'

/-- Digits with a point after or among them, or a point and digits. -/
inductive Mantissa (p : Char → Bool) : List Char → Prop
  | whole {ds : List Char} : ds ≠ [] → (∀ c ∈ ds, p c = true) → Mantissa p ds
  | point {ds fraction : List Char} : ds ≠ [] → (∀ c ∈ ds, p c = true) →
    (∀ c ∈ fraction, p c = true) → Mantissa p (ds ++ '.' :: fraction)
  | fraction {ds : List Char} : ds ≠ [] → (∀ c ∈ ds, p c = true) → Mantissa p ('.' :: ds)

inductive Exponent (p : Char → Bool) : List Char → Prop
  | absent : Exponent p []
  | present {letter : Char} {sign ds : List Char} : letter = 'e' ∨ letter = 'E' → sign ∈ signs →
    ds ≠ [] → (∀ c ∈ ds, p c = true) → Exponent p (letter :: (sign ++ ds))

def UnsignedForm (p : Char → Bool) (x : List Char) : Prop :=
  x = "Infinity".toList ∨ ∃ m e, Mantissa p m ∧ Exponent p e ∧ x = m ++ e

/-- The form of a number, with the digits of the class `p`. -/
def NumberForm (p : Char → Bool) (w : List Char) : Prop :=
  ∃ sign x, sign ∈ signs ∧ UnsignedForm p x ∧ w = sign ++ x

section Forms

variable {p q : Char → Bool} {s m e x w sign : List Char}

theorem Mantissa.imp (h : Mantissa p m) (hpq : ∀ c ∈ m, p c = true → q c = true) : Mantissa q m := by
  cases h with
  | whole hne hds => exact .whole hne fun c hc => hpq c hc (hds c hc)
  | point hne hds hfraction =>
    refine .point hne (fun c hc => ?_) (fun c hc => ?_)
    · exact hpq c (List.mem_append_left _ hc) (hds c hc)
    · exact hpq c (List.mem_append_right _ (List.mem_cons_of_mem _ hc)) (hfraction c hc)
  | fraction hne hds => exact .fraction hne fun c hc => hpq c (List.mem_cons_of_mem _ hc) (hds c hc)

theorem Exponent.imp (h : Exponent p e) (hpq : ∀ c ∈ e, p c = true → q c = true) : Exponent q e := by
  cases h with
  | absent => exact .absent
  | present hletter hsign hne hds =>
    refine .present hletter hsign hne fun c hc => ?_
    exact hpq c (List.mem_cons_of_mem _ (List.mem_append_right _ hc)) (hds c hc)

theorem UnsignedForm.imp (h : UnsignedForm p x) (hpq : ∀ c ∈ x, p c = true → q c = true) :
    UnsignedForm q x := by
  rcases h with rfl | ⟨m, e, hm, he, rfl⟩
  · exact .inl rfl
  · refine .inr ⟨m, e, hm.imp fun c hc => ?_, he.imp fun c hc => ?_, rfl⟩
    · exact hpq c (List.mem_append_left _ hc)
    · exact hpq c (List.mem_append_right _ hc)

/-- The form depends on the class only through the characters of the text. -/
theorem NumberForm.imp (h : NumberForm p w) (hpq : ∀ c ∈ w, p c = true → q c = true) :
    NumberForm q w := by
  obtain ⟨sign, x, hsign, hx, rfl⟩ := h
  exact ⟨sign, x, hsign, hx.imp fun c hc => hpq c (List.mem_append_right _ hc), rfl⟩

theorem NumberForm.of_isDigit (h : NumberForm Char.isDigit w) : NumberForm isDecimalDigit w :=
  h.imp fun _ _ => isDecimalDigit_of_isDigit

/-- In an ASCII text all digits are those of ASCII. -/
theorem isDigit_of_isAscii (hs : IsAscii s) : ∀ c ∈ s, isDecimalDigit c = true → c.isDigit = true := by
  intro c hc hdigit
  rwa [isDecimalDigit, if_pos (hs c hc)] at hdigit

theorem NumberForm.of_isAscii (h : NumberForm isDecimalDigit w) (hascii : IsAscii w) :
    NumberForm Char.isDigit w :=
  h.imp (isDigit_of_isAscii hascii)

theorem Mantissa.eq_cons (h : Mantissa p m) : ∃ c rest, m = c :: rest ∧ (p c = true ∨ c = '.') := by
  cases h with
  | whole hne hds =>
    obtain ⟨c, ds, rfl⟩ := List.exists_cons_of_ne_nil hne
    exact ⟨c, ds, rfl, .inl (hds c List.mem_cons_self)⟩
  | @point ds fraction hne hds _ =>
    obtain ⟨c, ds, rfl⟩ := List.exists_cons_of_ne_nil hne
    exact ⟨c, ds ++ '.' :: fraction, rfl, .inl (hds c List.mem_cons_self)⟩
  | @fraction ds => exact ⟨'.', ds, rfl, .inr rfl⟩

theorem Mantissa.mem (h : Mantissa p m) : ∀ c ∈ m, p c = true ∨ c = '.' := by
  intro c hc
  cases h with
  | whole _ hds => exact .inl (hds c hc)
  | point _ hds hfraction =>
    rcases List.mem_append.mp hc with hc | hc
    · exact .inl (hds c hc)
    · rcases List.mem_cons.mp hc with rfl | hc
      · exact .inr rfl
      · exact .inl (hfraction c hc)
  | fraction _ hds =>
    rcases List.mem_cons.mp hc with rfl | hc
    · exact .inr rfl
    · exact .inl (hds c hc)

section Concat

variable {c : Char}

theorem Mantissa.concat (h : Mantissa p m) (hc : p c = true) : Mantissa p (m ++ [c]) := by
  have hall : ∀ {ds : List Char}, (∀ d ∈ ds, p d = true) → ∀ d ∈ ds ++ [c], p d = true := by
    intro ds hds
    exact List.forall_mem_append.mpr ⟨hds, List.forall_mem_singleton.mpr hc⟩
  cases h with
  | whole hne hds => exact .whole (List.append_ne_nil_of_left_ne_nil hne _) (hall hds)
  | point hne hds hfraction =>
    rw [List.append_assoc, List.cons_append]
    exact .point hne hds (hall hfraction)
  | fraction hne hds =>
    rw [List.cons_append]
    exact .fraction (List.append_ne_nil_of_left_ne_nil hne _) (hall hds)

theorem Mantissa.concat_point (h : Mantissa p m) (hm : '.' ∉ m) : Mantissa p (m ++ ['.']) := by
  cases h with
  | whole hne hds => exact .point hne hds nofun
  | point => simp at hm
  | fraction => simp at hm

theorem Exponent.concat (h : Exponent p e) (hne : e ≠ []) (hc : p c = true) :
    Exponent p (e ++ [c]) := by
  cases h with
  | absent => exact absurd rfl hne
  | present hletter hsign hds hall =>
    rw [List.cons_append, List.append_assoc]
    refine .present hletter hsign (List.append_ne_nil_of_left_ne_nil hds _) ?_
    exact List.forall_mem_append.mpr ⟨hall, List.forall_mem_singleton.mpr hc⟩

end Concat

/-- The exponent begins with a letter, so that neither a digit nor a point follows the mantissa. -/
theorem Exponent.head (h : Exponent p e) : ∀ c, e.head? = some c → c = 'e' ∨ c = 'E' := by
  intro c hc
  cases h with
  | absent => cases hc
  | present hletter =>
    cases hc
    exact hletter

theorem UnsignedForm.ne_nil (h : UnsignedForm p x) : x ≠ [] := by
  rcases h with rfl | ⟨m, e, hm, _, rfl⟩
  · decide
  · obtain ⟨c, rest, rfl, _⟩ := hm.eq_cons
    exact List.cons_ne_nil c _

theorem Signless.append (h : Signless x) (hne : x ≠ []) (y : List Char) : Signless (x ++ y) := by
  obtain ⟨c, x, rfl⟩ := List.exists_cons_of_ne_nil hne
  exact h

theorem signless_of_all (hminus : p '-' = false) (hplus : p '+' = false)
    (hx : ∀ c ∈ x, p c = true) : Signless x := by
  intro c hc
  have hdigit := hx c (List.mem_of_head? hc)
  constructor
  · rintro rfl
    simp [hminus] at hdigit
  · rintro rfl
    simp [hplus] at hdigit

/-- No second sign follows the sign. -/
theorem UnsignedForm.signless (h : UnsignedForm p x) (hminus : p '-' = false)
    (hplus : p '+' = false) : Signless x := by
  intro c hc
  rcases h with rfl | ⟨m, e, hm, _, rfl⟩
  · cases hc
    decide
  · obtain ⟨d, rest, rfl, hd⟩ := hm.eq_cons
    cases hc
    rcases hd with hd | rfl
    · constructor
      · rintro rfl
        simp [hminus] at hd
      · rintro rfl
        simp [hplus] at hd
    · decide

theorem takeSign_append (hsign : sign ∈ signs) (hx : sign = [] → Signless x) :
    takeSign (sign ++ x) = (decide (sign = ['-']), x) := by
  simp only [signs, List.mem_cons, List.not_mem_nil, or_false] at hsign
  rcases hsign with rfl | rfl | rfl
  · cases x with
    | nil => rfl
    | cons c x =>
      obtain ⟨hminus, hplus⟩ := hx rfl c rfl
      simp [takeSign, hminus, hplus]
  · rfl
  · rfl

/-- A sign that is taken off is put back. -/
theorem takeSign_cases (s : List Char) : ∃ sign ∈ signs, s = sign ++ (takeSign s).2 ∧
    (takeSign s).1 = decide (sign = ['-']) ∧ (sign = [] → Signless (takeSign s).2) := by
  unfold takeSign
  split
  next => exact ⟨['-'], by decide, rfl, rfl, nofun⟩
  next => exact ⟨['+'], by decide, rfl, rfl, nofun⟩
  next hminus hplus =>
    refine ⟨[], by decide, rfl, rfl, ?_⟩
    intro _ c hc
    obtain ⟨rest, rfl⟩ := List.head?_eq_some_iff.mp hc
    constructor
    · rintro rfl
      exact hminus rest rfl
    · rintro rfl
      exact hplus rest rfl

end Forms

namespace Double

variable {negative : Bool} {m e x w : List Char}

theorem readExponent?_of_exponent (h : Exponent Char.isDigit e) : ∃ k, readExponent? e = some k := by
  cases h with
  | absent => exact ⟨0, rfl⟩
  | @present letter sign ds hletter hsign hne hds =>
    have hhead : Signless ds := signless_of_all rfl rfl hds
    have hall : (ds.isEmpty || !ds.all Char.isDigit) = false := by
      simpa [List.isEmpty_iff, hne] using hds
    simp only [readExponent?, if_pos hletter, takeSign_append hsign fun _ => hhead, hall,
      Bool.false_eq_true, if_false]
    exact ⟨_, rfl⟩

theorem readDecimal?_of_form (hm : Mantissa Char.isDigit m) (he : Exponent Char.isDigit e) :
    ∃ x, readDecimal? negative (m ++ e) = some x ∧ x.isNaN = false := by
  obtain ⟨k, hk⟩ := readExponent?_of_exponent he
  have hletter := he.head
  have hdigit : ∀ c, e.head? = some c → c.isDigit = false := by
    intro c hc
    rcases hletter c hc with rfl | rfl
    · rfl
    · rfl
  have hpoint : takeFraction e = ([], e) := by
    unfold takeFraction
    split
    next =>
      have hmem := hletter '.' rfl
      exact absurd hmem (by decide)
    next => rfl
  unfold readDecimal?
  cases hm with
  | whole hne hds =>
    have hempty : m.isEmpty = false := List.isEmpty_eq_false_iff.mpr hne
    simp only [span_append hds hdigit, hpoint, hempty, Bool.false_and, Bool.false_eq_true, if_false,
      hk, Option.map_some]
    exact ⟨_, rfl, isNaN_ofDecimal _ _ _⟩
  | @point ds fraction hne hds hfraction =>
    have hempty : ds.isEmpty = false := List.isEmpty_eq_false_iff.mpr hne
    have hspan : (ds ++ '.' :: (fraction ++ e)).span Char.isDigit = (ds, '.' :: (fraction ++ e)) := by
      apply span_append hds
      intro c hc
      cases hc
      rfl
    simp only [List.append_assoc, List.cons_append, hspan, takeFraction, span_append hfraction hdigit,
      hempty, Bool.false_and, Bool.false_eq_true, if_false, hk, Option.map_some]
    exact ⟨_, rfl, isNaN_ofDecimal _ _ _⟩
  | @fraction ds hne hds =>
    have hempty : ds.isEmpty = false := List.isEmpty_eq_false_iff.mpr hne
    have hspan : ('.' :: (ds ++ e)).span Char.isDigit = ([], '.' :: (ds ++ e)) := rfl
    simp only [List.cons_append, hspan, takeFraction, span_append hds hdigit, hempty, Bool.and_false,
      Bool.false_eq_true, if_false, hk, Option.map_some]
    exact ⟨_, rfl, isNaN_ofDecimal _ _ _⟩

theorem ofText?_infinity {sign : List Char} (hsign : sign ∈ signs) :
    ofText? (sign ++ "Infinity".toList) = some (infinite (decide (sign = ['-']))) := by
  have hall : ∀ sign ∈ signs, ofText? (sign ++ "Infinity".toList) =
      some (infinite (decide (sign = ['-']))) := by
    decide
  exact hall sign hsign

/-- A decimal is no word, since it begins with a digit or a point. -/
theorem ofText?_decimal {sign : List Char} (hsign : sign ∈ signs) (hm : Mantissa Char.isDigit m) :
    ofText? (sign ++ (m ++ e)) = readDecimal? (decide (sign = ['-'])) (m ++ e) := by
  obtain ⟨c, rest, rfl, hc⟩ := hm.eq_cons
  have hlower : c.toLower = c := by
    rcases hc with hc | rfl
    · exact toLower_of_isDigit hc
    · rfl
  have hne : ∀ d, d.isDigit = false → d ≠ '.' → c ≠ d := by
    intro d hd hpoint
    rcases hc with hc | rfl
    · exact ne_of_isDigit hc hd
    · exact hpoint.symm
  have hhead : Signless (c :: (rest ++ e)) := by
    intro d hd
    cases hd
    exact ⟨hne '-' rfl (by decide), hne '+' rfl (by decide)⟩
  have hi := hne 'i' rfl (by decide)
  have hn := hne 'n' rfl (by decide)
  simp only [List.cons_append, ofText?, takeSign_append hsign fun _ => hhead, List.map_cons, hlower,
    List.cons.injEq, hi, hn, false_and, or_self, if_false]

/-- Decimals with other digits are read as no number, be the sign taken off or not. -/
theorem ofText?_signed {sign : List Char} (hsign : sign ∈ signs) (hm : Mantissa isDecimalDigit m) :
    ofText? (sign ++ (m ++ e)) = readDecimal? (decide (sign = ['-'])) (m ++ e) := by
  by_cases hascii : IsAscii m
  · exact ofText?_decimal hsign (hm.imp (isDigit_of_isAscii hascii))
  · have hnone : ofText? (sign ++ (m ++ e)) = none := by
      refine Option.eq_none_iff_forall_ne_some.mpr fun x hx => hascii ?_
      exact (isAscii_append_iff.mp (isAscii_append_iff.mp (isAscii_of_ofText? hx)).2).1
    have hnone' : readDecimal? (decide (sign = ['-'])) (m ++ e) = none := by
      refine Option.eq_none_iff_forall_ne_some.mpr fun x hx => hascii ?_
      exact (isAscii_append_iff.mp (isAscii_of_readDecimal? hx)).1
    rw [hnone, hnone']

/-- What has the form of a number is read as a number. -/
theorem ofText?_of_form (h : NumberForm Char.isDigit w) :
    ∃ x, ofText? w = some x ∧ x.isNaN = false := by
  obtain ⟨sign, x, hsign, hx, rfl⟩ := h
  rcases hx with rfl | ⟨m, e, hm, he, rfl⟩
  · exact ⟨_, ofText?_infinity hsign, rfl⟩
  · rw [ofText?_decimal hsign hm]
    exact readDecimal?_of_form hm he

end Double

end Verdict
