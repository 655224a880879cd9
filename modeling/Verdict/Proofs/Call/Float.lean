import Verdict.Call.Functions
import Verdict.Proofs.Pattern.Number

namespace Verdict.Function

section Scanning

variable {s m e ds body whole rest sign : List Char} {letter : Char}

theorem length_le_takeWhile {p : Char → Bool} (h : ds <+: s) (hds : ∀ c ∈ ds, p c = true) :
    ds.length ≤ (s.takeWhile p).length := by
  obtain ⟨rest, rfl⟩ := h
  rw [List.takeWhile_append_of_pos hds, List.length_append]
  omega

theorem takeExponent_letter (hletter : letter = 'e' ∨ letter = 'E') (hsign : sign ∈ signs)
    (hbody : sign = [] → Signless body) : takeExponent (letter :: (sign ++ body)) =
      if (body.takeWhile isDecimalDigit).isEmpty then []
      else letter :: (sign ++ body.takeWhile isDecimalDigit) := by
  simp only [signs, List.mem_cons, List.not_mem_nil, or_false] at hsign
  unfold takeExponent
  simp only [if_pos hletter]
  rcases hsign with rfl | rfl | rfl
  · cases body with
    | nil => rfl
    | cons c body =>
      obtain ⟨hminus, hplus⟩ := hbody rfl c rfl
      simp [hminus, hplus]
  · rfl
  · rfl

theorem takeExponent_spec (s : List Char) :
    takeExponent s <+: s ∧ Exponent isDecimalDigit (takeExponent s) := by
  cases s with
  | nil => exact ⟨List.nil_prefix, .absent⟩
  | cons letter rest =>
    by_cases hletter : letter = 'e' ∨ letter = 'E'
    · obtain ⟨sign, hsign, hrest, _, hsignless⟩ := takeSign_cases rest
      rw [hrest, takeExponent_letter hletter hsign hsignless]
      split
      next => exact ⟨List.nil_prefix, .absent⟩
      next hne =>
        rw [List.isEmpty_iff] at hne
        have hdigits := List.takeWhile_prefix isDecimalDigit (l := (takeSign rest).2)
        refine ⟨?_, .present hletter hsign hne fun c => List.mem_takeWhile_imp⟩
        exact (List.prefix_cons_inj letter).mpr ((List.prefix_append_right_inj sign).mpr hdigits)
    · have hnone : takeExponent (letter :: rest) = [] := by
        simp only [takeExponent, if_neg hletter]
      rw [hnone]
      exact ⟨List.nil_prefix, .absent⟩

theorem length_exponent_le (h : Exponent isDecimalDigit e) (he : e <+: s) :
    e.length ≤ (takeExponent s).length := by
  cases h with
  | absent => exact Nat.zero_le _
  | @present letter sign ds hletter hsign hne hds =>
    obtain ⟨rest, rfl⟩ := he
    have hdigits : Signless ds := signless_of_all (by decide) (by decide) hds
    have hsignless := hdigits.append hne rest
    have htake : (ds ++ rest).takeWhile isDecimalDigit = ds ++ rest.takeWhile isDecimalDigit :=
      List.takeWhile_append_of_pos hds
    rw [List.cons_append, List.append_assoc, takeExponent_letter hletter hsign fun _ => hsignless,
      htake, if_neg (by simp [hne])]
    simp only [List.length_cons, List.length_append]
    omega

theorem takeExponent_longest (s : List Char) :
    LongestPrefix (Exponent isDecimalDigit) s (takeExponent s) := by
  obtain ⟨hbegins, hexponent⟩ := takeExponent_spec s
  exact ⟨hbegins, hexponent, fun _ he h => length_exponent_le h he⟩

/-- Where the digits at the beginning of a text end, a mantissa ends as well or has its point. -/
theorem mantissa_of_span (hs : s.span isDecimalDigit = (whole, rest)) (hm : m <+: s)
    (h : Mantissa isDecimalDigit m) :
    whole ≠ [] ∧ m.length ≤ whole.length ∨ ∃ fraction after, rest = '.' :: after ∧
      fraction <+: after ∧ (∀ c ∈ fraction, isDecimalDigit c = true) ∧ m = whole ++ '.' :: fraction ∧
      ¬ (whole = [] ∧ fraction = []) := by
  obtain ⟨after, rfl⟩ := hm
  have hpoint : isDecimalDigit '.' = false := by decide
  have hcut : ∀ {ds x : List Char}, (∀ c ∈ ds, isDecimalDigit c = true) →
      (ds ++ '.' :: x).span isDecimalDigit = (ds, '.' :: x) := by
    intro ds x hds
    apply span_append hds
    intro c hc
    cases hc
    exact hpoint
  cases h with
  | whole hne hds =>
    rw [List.span_eq_takeWhile_dropWhile] at hs
    have hwhole := (Prod.mk.inj hs).1
    have hle := length_le_takeWhile (List.prefix_append m after) hds
    rw [hwhole] at hle
    refine .inl ⟨?_, hle⟩
    rintro rfl
    exact hne (List.length_eq_zero_iff.mp (Nat.le_zero.mp hle))
  | @point ds fraction hne hds hfraction =>
    rw [List.append_assoc, List.cons_append, hcut hds] at hs
    cases hs
    exact .inr ⟨fraction, _, rfl, List.prefix_append _ _, hfraction, rfl, fun hnil => hne hnil.1⟩
  | @fraction ds hne hds =>
    have hnone : ([] ++ '.' :: (ds ++ after)).span isDecimalDigit = ([], '.' :: (ds ++ after)) :=
      hcut nofun
    rw [List.nil_append] at hnone
    rw [List.cons_append, hnone] at hs
    cases hs
    exact .inr ⟨ds, _, rfl, List.prefix_append _ _, hds, rfl, fun hnil => hne hnil.2⟩

theorem takeDecimal_point (hs : s.span isDecimalDigit = (whole, '.' :: rest)) :
    takeDecimal s = if whole = [] ∧ rest.takeWhile isDecimalDigit = [] then []
      else whole ++ '.' :: rest.takeWhile isDecimalDigit ++
        takeExponent (rest.dropWhile isDecimalDigit) := by
  unfold takeDecimal
  rw [hs]
  cases whole with
  | nil => simp [List.span_eq_takeWhile_dropWhile]
  | cons c whole => simp [List.span_eq_takeWhile_dropWhile]

theorem takeDecimal_plain (hs : s.span isDecimalDigit = (whole, rest)) (hrest : rest.head? ≠ some '.') :
    takeDecimal s = if whole = [] then [] else whole ++ takeExponent rest := by
  unfold takeDecimal
  rw [hs]
  cases rest with
  | nil => cases whole <;> rfl
  | cons c rest =>
    have hc : c ≠ '.' := by
      rintro rfl
      exact hrest rfl
    cases whole with
    | nil => simp [hc]
    | cons d whole => simp [hc]

theorem eq_append_of_span (hs : s.span isDecimalDigit = (whole, rest)) :
    s = whole ++ rest ∧ ∀ c ∈ whole, isDecimalDigit c = true := by
  rw [List.span_eq_takeWhile_dropWhile] at hs
  obtain ⟨rfl, rfl⟩ := Prod.mk.inj hs
  exact ⟨List.takeWhile_append_dropWhile.symm, fun c => List.mem_takeWhile_imp⟩

/-- The longest mantissa is read first, and then the exponent behind it. Nothing is read if there is no
mantissa. -/
def ReadsDecimal (s : List Char) : Prop :=
  (takeDecimal s = [] ∧ ∀ m, m <+: s → ¬ Mantissa isDecimalDigit m) ∨
    ∃ m rest, s = m ++ rest ∧ LongestPrefix (Mantissa isDecimalDigit) s m ∧
      takeDecimal s = m ++ takeExponent rest

theorem readsDecimal_of_point {after : List Char}
    (hspan : s.span isDecimalDigit = (whole, '.' :: after)) : ReadsDecimal s := by
  obtain ⟨hs, hdigits⟩ := eq_append_of_span hspan
  unfold ReadsDecimal
  rw [takeDecimal_point hspan]
  split
  next hnil =>
    refine .inl ⟨rfl, ?_⟩
    intro m hm hmantissa
    rcases mantissa_of_span hspan hm hmantissa with ⟨hne, _⟩ | ⟨fraction, x, hx, hbegins, hall, _, hne⟩
    · exact hne hnil.1
    · cases hx
      have hle := length_le_takeWhile hbegins hall
      rw [hnil.2] at hle
      exact hne ⟨hnil.1, List.length_eq_zero_iff.mp (Nat.le_zero.mp hle)⟩
  next hne =>
    have hafter := @List.takeWhile_append_dropWhile _ isDecimalDigit after
    have hfraction : ∀ c ∈ after.takeWhile isDecimalDigit, isDecimalDigit c = true :=
      fun c => List.mem_takeWhile_imp
    refine .inr ⟨whole ++ '.' :: after.takeWhile isDecimalDigit, after.dropWhile isDecimalDigit,
      ?_, ⟨?_, ?_, ?_⟩, rfl⟩
    · rw [hs, List.append_assoc, List.cons_append, hafter]
    · rw [hs, List.prefix_append_right_inj, List.prefix_cons_inj]
      exact List.takeWhile_prefix isDecimalDigit
    · by_cases hnil : whole = []
      · rw [hnil, List.nil_append]
        exact .fraction (fun hempty => hne ⟨hnil, hempty⟩) hfraction
      · exact .point hnil hdigits hfraction
    · intro m hm hmantissa
      rw [List.length_append, List.length_cons]
      rcases mantissa_of_span hspan hm hmantissa with ⟨_, hle⟩ | ⟨fraction, x, hx, hbegins, hall, rfl, _⟩
      · omega
      · cases hx
        have hle := length_le_takeWhile hbegins hall
        rw [List.length_append, List.length_cons]
        omega

theorem readsDecimal_of_plain (hspan : s.span isDecimalDigit = (whole, rest))
    (hpoint : rest.head? ≠ some '.') : ReadsDecimal s := by
  obtain ⟨hs, hdigits⟩ := eq_append_of_span hspan
  have hle : ∀ m, m <+: s → Mantissa isDecimalDigit m → whole ≠ [] ∧ m.length ≤ whole.length := by
    intro m hm hmantissa
    rcases mantissa_of_span hspan hm hmantissa with hle | ⟨fraction, x, rfl, _⟩
    · exact hle
    · exact absurd rfl hpoint
  unfold ReadsDecimal
  rw [takeDecimal_plain hspan hpoint]
  split
  next hnil => exact .inl ⟨rfl, fun m hm hmantissa => (hle m hm hmantissa).1 hnil⟩
  next hne =>
    have hbegins : whole <+: s := by
      rw [hs]
      exact List.prefix_append whole rest
    exact .inr ⟨whole, rest, hs, ⟨hbegins, .whole hne hdigits, fun m hm hmantissa =>
      (hle m hm hmantissa).2⟩, rfl⟩

theorem readsDecimal (s : List Char) : ReadsDecimal s := by
  obtain ⟨whole, rest, hspan⟩ : ∃ whole rest, s.span isDecimalDigit = (whole, rest) := ⟨_, _, rfl⟩
  by_cases hpoint : rest.head? = some '.'
  · obtain ⟨after, rfl⟩ := List.head?_eq_some_iff.mp hpoint
    exact readsDecimal_of_point hspan
  · exact readsDecimal_of_plain hspan hpoint

/-- The letter of an exponent stands in no mantissa, so that the longest one ends before it. -/
theorem mantissa_eq_of_exponent {n : List Char} (hm : LongestPrefix (Mantissa isDecimalDigit) s m)
    (h : n ++ e <+: s) (hn : Mantissa isDecimalDigit n) (he : Exponent isDecimalDigit e)
    (hne : e ≠ []) : m = n := by
  obtain ⟨letter, tail, rfl⟩ := List.exists_cons_of_ne_nil hne
  have hletter := he.head letter rfl
  have hle := hm.length_le n ((List.prefix_append n _).trans h) hn
  obtain ⟨z, rfl⟩ := List.prefix_of_prefix_length_le ((List.prefix_append n _).trans h) hm.begins hle
  obtain ⟨after, rfl⟩ := h
  have hz := hm.begins
  rw [List.append_assoc, List.prefix_append_right_inj] at hz
  cases z with
  | nil => exact List.append_nil n
  | cons c z =>
    obtain rfl : c = letter := (List.cons_prefix_cons.mp hz).1
    have hmem := hm.holds.mem c (List.mem_append_right n List.mem_cons_self)
    rcases hletter with rfl | rfl
    · exact absurd hmem (by decide)
    · exact absurd hmem (by decide)

/-- Without a word, the longest form is that of the longest mantissa with the longest exponent behind
it. -/
theorem takeDecimal_longest (hinfinity : ¬ "Infinity".toList <+: s) :
    (takeDecimal s = [] ∧ ∀ x, x <+: s → ¬ UnsignedForm isDecimalDigit x) ∨
      ∃ m e, Mantissa isDecimalDigit m ∧ takeDecimal s = m ++ e ∧
        LongestPrefix (UnsignedForm isDecimalDigit) s (m ++ e) := by
  rcases readsDecimal s with ⟨hnil, hnone⟩ | ⟨m, rest, hs, hm, htake⟩
  · refine .inl ⟨hnil, ?_⟩
    rintro x hx (rfl | ⟨m, e, hm, _, rfl⟩)
    · exact hinfinity hx
    · exact hnone m ((List.prefix_append m e).trans hx) hm
  · have he := takeExponent_longest rest
    refine .inr ⟨m, takeExponent rest, hm.holds, htake, ?_, .inr ⟨m, _, hm.holds, he.holds, rfl⟩, ?_⟩
    · rw [hs, List.prefix_append_right_inj]
      exact he.begins
    · rintro x hx (rfl | ⟨n, f, hn, hf, rfl⟩)
      · exact absurd hx hinfinity
      · have hle := hm.length_le n ((List.prefix_append n f).trans hx) hn
        rw [List.length_append, List.length_append]
        by_cases hfnil : f = []
        · rw [hfnil, List.length_nil]
          omega
        · obtain rfl := mantissa_eq_of_exponent hm hx hn hf hfnil
          rw [hs, List.prefix_append_right_inj] at hx
          have hfle := he.length_le f hx hf
          omega

/-- Behind the sign of a text stands what is left of each of its forms. -/
theorem unsigned_of_form {w : List Char} (hs : s = sign ++ (takeSign s).2) (h : w <+: s)
    (hw : NumberForm isDecimalDigit w) :
    ∃ x, x <+: (takeSign s).2 ∧ UnsignedForm isDecimalDigit x ∧ w = sign ++ x := by
  obtain ⟨sign', x, hsign', hx, rfl⟩ := hw
  obtain ⟨after, hafter⟩ := h
  have hsignless := (hx.signless (by decide) (by decide)).append hx.ne_nil after
  have hbody : (takeSign s).2 = x ++ after := by
    rw [← hafter, List.append_assoc, takeSign_append hsign' fun _ => hsignless]
  have hsign : sign = sign' := by
    rw [hbody, ← hafter, List.append_assoc] at hs
    exact (List.append_cancel_right hs).symm
  refine ⟨x, ?_, hx, by rw [hsign]⟩
  rw [hbody]
  exact List.prefix_append x after

theorem longest_signed {x : List Char} (hsign : sign ∈ signs) (hs : s = sign ++ (takeSign s).2)
    (hx : LongestPrefix (UnsignedForm isDecimalDigit) (takeSign s).2 x) :
    LongestPrefix (NumberForm isDecimalDigit) s (sign ++ x) := by
  refine ⟨?_, ⟨sign, x, hsign, hx.holds, rfl⟩, ?_⟩
  · have hbegins := (List.prefix_append_right_inj sign).mpr hx.begins
    rwa [← hs] at hbegins
  · intro w hw hform
    obtain ⟨y, hy, hunsigned, rfl⟩ := unsigned_of_form hs hw hform
    have hle := hx.length_le y hy hunsigned
    rw [List.length_append, List.length_append]
    omega

theorem longest_infinity (h : "Infinity".toList <+: s) :
    LongestPrefix (UnsignedForm isDecimalDigit) s "Infinity".toList := by
  refine ⟨h, .inl rfl, ?_⟩
  rintro x hx (rfl | ⟨m, e, hm, _, rfl⟩)
  · exact Nat.le_refl _
  · obtain ⟨after, rfl⟩ := h
    obtain ⟨c, rest, rfl, hc⟩ := hm.eq_cons
    have hletter : c = 'I' := (List.cons_prefix_cons.mp hx).1
    rw [hletter] at hc
    exact absurd hc (by decide)

/-- Of the longest text that has the form of a number the number is read, if it can be. -/
theorem leadingNumber_cases (s : List Char) :
    (leadingNumber s = .nan ∧ ∀ w, w <+: s → ¬ NumberForm isDecimalDigit w) ∨
      ∃ w, LongestPrefix (NumberForm isDecimalDigit) s w ∧
        leadingNumber s = (Double.ofText? w).getD .nan := by
  obtain ⟨sign, hsign, hs, hnegative, _⟩ := takeSign_cases s
  have hunfold : leadingNumber s =
      if "Infinity".toList.isPrefixOf (takeSign s).2 then .infinite (takeSign s).1
      else if (takeDecimal (takeSign s).2).isEmpty then .nan
      else (Double.readDecimal? (takeSign s).1 (takeDecimal (takeSign s).2)).getD .nan := rfl
  rw [hunfold, hnegative]
  by_cases hinfinity : "Infinity".toList <+: (takeSign s).2
  · refine .inr ⟨sign ++ "Infinity".toList, longest_signed hsign hs (longest_infinity hinfinity), ?_⟩
    rw [if_pos (List.isPrefixOf_iff_prefix.mpr hinfinity), Double.ofText?_infinity hsign]
    rfl
  · have hplain : ¬ "Infinity".toList.isPrefixOf (takeSign s).2 = true :=
      mt List.isPrefixOf_iff_prefix.mp hinfinity
    rw [if_neg hplain]
    rcases takeDecimal_longest hinfinity with ⟨hnil, hnone⟩ | ⟨m, e, hm, htake, hlongest⟩
    · refine .inl ⟨by rw [hnil]; rfl, ?_⟩
      intro w hw hform
      obtain ⟨x, hx, hunsigned, _⟩ := unsigned_of_form hs hw hform
      exact hnone x hx hunsigned
    · refine .inr ⟨sign ++ (m ++ e), longest_signed hsign hs hlongest, ?_⟩
      have hempty : (m ++ e).isEmpty = false := List.isEmpty_eq_false_iff.mpr hlongest.holds.ne_nil
      rw [htake, hempty, if_neg Bool.false_ne_true, Double.ofText?_signed hsign hm]

end Scanning

/-- A number is that of the longest text that has the form of one with the digits of ASCII and that `t`
begins with, or it is NaN and there is none. -/
def ReadsLongest (t : List Char) (x : Double) : Prop :=
  (∀ w, LongestPrefix (NumberForm Char.isDigit) t w → Double.ofText? w = some x) ∧
    (x.isNaN = true ↔ ∀ w, w <+: t → ¬ NumberForm Char.isDigit w)

section Reading

variable {t w : List Char} {x : Double}

theorem readsLongest_nan_iff :
    ReadsLongest t .nan ↔ ∀ w, w <+: t → ¬ NumberForm Char.isDigit w := by
  constructor
  · intro h
    exact h.2.mp rfl
  · intro hnone
    refine ⟨fun w hw => absurd hw.holds (hnone w hw.begins), ?_⟩
    exact iff_of_true rfl hnone

/-- In an ASCII text the digits of ASCII are all digits, so that the longest text is the same. -/
theorem readsLongest_of_isAscii (hw : LongestPrefix (NumberForm isDecimalDigit) t w)
    (hascii : IsAscii w) : ReadsLongest t ((Double.ofText? w).getD .nan) := by
  have hform := hw.holds.of_isAscii hascii
  have hnarrow : LongestPrefix (NumberForm Char.isDigit) t w :=
    hw.strengthen hform fun _ => NumberForm.of_isDigit
  obtain ⟨x, hx, hnumber⟩ := Double.ofText?_of_form hform
  rw [hx, Option.getD_some]
  refine ⟨fun m hm => ?_, ?_⟩
  · rw [hm.unique hnarrow, hx]
  · rw [hnumber]
    exact iff_of_false Bool.false_ne_true fun hnone => hnone w hw.begins hform

theorem ofText?_of_not_isAscii (h : ¬ IsAscii w) : Double.ofText? w = none :=
  Option.eq_none_iff_forall_ne_some.mpr fun _ hx => h (Double.isAscii_of_ofText? hx)

/-- The number of the longest form is read where that form is ASCII, and NaN where it has other digits:
this is wrong if the text begins with a number in the digits of ASCII. The pattern for the form finds its
longest text. -/
theorem parseFloat_longest (v : Value) (args : List Value) :
    let t := trimStart v.text.toList
    ∃ re x, numberPrefix.compile = .ok re ∧ parseFloat none (v :: args) = .ok (.float x) ∧
      (ReadsLongest t x ↔ (∀ w, LongestPrefix (NumberForm isDecimalDigit) t w → IsAscii w) ∨
        ∀ w, w <+: t → ¬ NumberForm Char.isDigit w) ∧
      (∀ w, LongestPrefix (NumberForm isDecimalDigit) t w →
        re.matchEnd? t t.length = some w.length ∧ (¬ IsAscii w → x = .nan)) ∧
      ((∀ w, w <+: t → ¬ NumberForm isDecimalDigit w) → re.matchEnd? t t.length = none) := by
  intro t
  have hcompile := numberPrefix_compile
  have hsearch := matchEnd?_numberPrefix hcompile t
  refine ⟨_, leadingNumber t, hcompile, rfl, ?_, ?_, hsearch.2⟩
  · rcases leadingNumber_cases t with ⟨hnan, hnone⟩ | ⟨w, hw, hread⟩
    · have hnarrow : ∀ w, w <+: t → ¬ NumberForm Char.isDigit w :=
        fun w hbegins hform => hnone w hbegins hform.of_isDigit
      rw [hnan, readsLongest_nan_iff]
      exact iff_of_true hnarrow (.inr hnarrow)
    · rw [hread]
      by_cases hascii : IsAscii w
      · refine iff_of_true (readsLongest_of_isAscii hw hascii) (.inl ?_)
        intro m hm
        rwa [hm.unique hw]
      · rw [ofText?_of_not_isAscii hascii, Option.getD_none, readsLongest_nan_iff]
        exact (or_iff_right fun hall => hascii (hall w hw)).symm
  · intro w hw
    refine ⟨hsearch.1 w hw, fun hascii => ?_⟩
    rcases leadingNumber_cases t with ⟨hnan, _⟩ | ⟨m, hm, hread⟩
    · exact hnan
    · rw [hread, hm.unique hw, ofText?_of_not_isAscii hascii]
      rfl

theorem isAscii_of_form (h : NumberForm Char.isDigit w) : IsAscii w := by
  obtain ⟨x, hx, _⟩ := Double.ofText?_of_form h
  exact Double.isAscii_of_ofText? hx

/-- A digit of another script behind a number takes the number away. -/
theorem parseFloat_other_digit :
    LongestPrefix (NumberForm Char.isDigit) "1٣".toList ['1'] ∧ Double.ofText? ['1'] = some 1 ∧
      parseFloat none [.string "1٣"] = .ok (.float .nan) := by
  have hone : Mantissa Char.isDigit ['1'] := .whole (List.cons_ne_nil _ _) (List.forall_mem_singleton.mpr rfl)
  have hform : NumberForm Char.isDigit ['1'] :=
    ⟨[], ['1'], by decide, .inr ⟨['1'], [], hone, .absent, rfl⟩, rfl⟩
  have hlongest : ∀ m, m <+: "1٣".toList → NumberForm Char.isDigit m → m.length ≤ ['1'].length := by
    intro m hm hnumber
    have hle := hm.length_le
    have hne : m ≠ "1٣".toList := by
      rintro rfl
      exact absurd (isAscii_of_form hnumber) (by decide)
    have hlt : m.length ≠ "1٣".toList.length := fun hlength => hne (hm.eq_of_length hlength)
    have htwo : "1٣".toList.length = 2 := by decide
    rw [List.length_singleton]
    omega
  have hread : leadingNumber (trimStart "1٣".toList) = .nan := by decide +kernel
  refine ⟨⟨⟨['٣'], rfl⟩, hform, hlongest⟩, by decide +kernel, ?_⟩
  exact congrArg (fun x => Except.ok (Value.float x)) hread

end Reading

end Verdict.Function
