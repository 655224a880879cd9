import Verdict.Proofs.Number.Decimal

namespace Verdict

section Digits

variable {c : Char} {ds : List Char} {m n : Nat}

theorem digitValue_lt (h : c.isDigit = true) : digitValue c < 10 := by
  have hc := toNat_of_isDigit h
  change c.toNat - 48 < 10
  omega

theorem readDigits_lt (hds : ∀ c ∈ ds, c.isDigit = true) (m : Nat) :
    readDigits m ds < (m + 1) * tenPow ds.length := by
  induction ds generalizing m with
  | nil => exact Nat.lt_of_lt_of_le (Nat.lt_succ_self m) (Nat.le_mul_of_pos_right _ (tenPow_pos 0))
  | cons c ds ih =>
    have hc := digitValue_lt (hds c List.mem_cons_self)
    calc readDigits (m * 10 + digitValue c) ds
        < (m * 10 + digitValue c + 1) * tenPow ds.length :=
          ih (fun d hd => hds d (List.mem_cons_of_mem c hd)) _
      _ ≤ (m + 1) * 10 * tenPow ds.length := Nat.mul_le_mul_right _ (by omega)
      _ = (m + 1) * tenPow (ds.length + 1) := by
          rw [tenPow_succ, Nat.mul_assoc, Nat.mul_comm 10]

end Digits

namespace Decimal

/-- A mantissa and a scale are what room there is for `digits` with `places` of them after the
point: less than one unit of the last place is lost, and only if no more digits fit. -/
structure Keeps (digits places m s : Nat) : Prop where
  lt : digits * tenPow s < (m + 1) * tenPow places
  full : (m = digits ∧ s = places) ∨ s = maxScale ∨ mantissaLimit ≤ m * 10

variable {m s m' s' : Nat} {ds : List Char}

theorem Keeps.refl (m s : Nat) : Keeps m s m s :=
  ⟨Nat.mul_lt_mul_of_pos_right (Nat.lt_succ_self m) (tenPow_pos s), .inl ⟨rfl, rfl⟩⟩

/-- Digits are dropped at their front: what follows them is less than one unit. -/
theorem dropped_lt {d k : Nat} (hds : ∀ c ∈ ds, c.isDigit = true) (hk : s' + k = s + 1)
    (h : m * 10 + d + 1 ≤ (m' + 1) * tenPow k) :
    Verdict.readDigits (m * 10 + d) ds * tenPow s' < (m' + 1) * tenPow (s + 1 + ds.length) := by
  calc Verdict.readDigits (m * 10 + d) ds * tenPow s'
      < (m * 10 + d + 1) * tenPow ds.length * tenPow s' :=
        Nat.mul_lt_mul_of_pos_right (readDigits_lt hds _) (tenPow_pos s')
    _ ≤ (m' + 1) * tenPow k * tenPow ds.length * tenPow s' :=
        Nat.mul_le_mul_right _ (Nat.mul_le_mul_right _ h)
    _ = (m' + 1) * tenPow (s + 1 + ds.length) := by
        rw [← hk, tenPow_add, tenPow_add]
        ring

/-- The reading ends at a digit `d` for which there is no room. -/
theorem round_keeps {digit : Bool} {d : Nat} (hd : d < 10) (hm : m < mantissaLimit)
    (hfull : s = maxScale ∨ mantissaLimit ≤ m * 10 + d)
    (hds : ∀ c ∈ ds, c.isDigit = true)
    (h : Reading.round ⟨m, s, true, digit⟩ d = some (m', s')) :
    Keeps (Verdict.readDigits (m * 10 + d) ds) (s + 1 + ds.length) m' s' := by
  have hlimit : mantissaLimit = 79228162514264337593543950336 := rfl
  have hten : tenPow 1 = 10 := rfl
  have hhundred : tenPow 2 = 100 := rfl
  unfold Reading.round at h
  dsimp only at h
  split at h
  next hlow =>
    cases h
    exact ⟨dropped_lt (k := 1) hds rfl (by rw [hten]; omega), .inr (by omega)⟩
  next hhigh =>
    split at h
    next hroom =>
      cases h
      exact ⟨dropped_lt (k := 1) hds rfl (by rw [hten]; omega), .inr (by omega)⟩
    next hcarry =>
      split at h
      next => cases h
      next hscale =>
        cases h
        refine ⟨dropped_lt (k := 2) hds (by omega) ?_, .inr (by omega)⟩
        rw [hhundred]
        omega

theorem readDigits?_fraction {digit : Bool} (hds : ∀ c ∈ ds, c.isDigit = true)
    (hm : m < mantissaLimit) (h : readDigits? ⟨m, s, true, digit⟩ ds = some (m', s')) :
    Keeps (Verdict.readDigits m ds) (s + ds.length) m' s' := by
  induction ds generalizing m s digit with
  | nil =>
    unfold readDigits? at h
    split at h
    next =>
      cases h
      exact .refl _ _
    next => cases h
  | cons c ds ih =>
    have hc := hds c List.mem_cons_self
    have hrest : ∀ d ∈ ds, d.isDigit = true := fun d hd => hds d (List.mem_cons_of_mem c hd)
    have hlength : s + (c :: ds).length = s + 1 + ds.length := by
      rw [List.length_cons]
      omega
    rw [hlength]
    simp only [readDigits?, digit?_of_isDigit hc, Bool.true_and, if_true] at h
    split at h
    next hfull =>
      refine round_keeps (digitValue_lt hc) hm ?_ hrest h
      simpa using hfull
    next hroom =>
      simp only [Bool.or_eq_true, decide_eq_true_eq, not_or, Nat.not_le] at hroom
      rw [if_neg (Nat.not_le.mpr hroom.2)] at h
      exact ih hrest hroom.2 h

/-- Before the point, all digits are read, or none at all. -/
theorem readDigits?_whole_append {digit : Bool} {rest : List Char}
    (hds : ∀ c ∈ ds, c.isDigit = true) (hm : m < mantissaLimit) {r : Nat × Nat}
    (h : readDigits? ⟨m, 0, false, digit⟩ (ds ++ rest) = some r) :
    Verdict.readDigits m ds < mantissaLimit ∧
      ∃ digit', readDigits? ⟨Verdict.readDigits m ds, 0, false, digit'⟩ rest = some r := by
  induction ds generalizing m digit with
  | nil => exact ⟨hm, digit, h⟩
  | cons c ds ih =>
    have hc := hds c List.mem_cons_self
    simp only [List.cons_append, readDigits?, digit?_of_isDigit hc, Bool.false_and,
      Bool.false_eq_true, if_false] at h
    split at h
    next => cases h
    next hroom =>
      exact ih (fun d hd => hds d (List.mem_cons_of_mem c hd)) (Nat.not_le.mp hroom) h

/-- Digits with at most one point among them. -/
theorem readDigits?_keeps {whole point fraction : List Char}
    (hwhole : ∀ c ∈ whole, c.isDigit = true) (hfraction : ∀ c ∈ fraction, c.isDigit = true)
    (hpoint : point = [] ∧ fraction = [] ∨ point = '.' :: fraction)
    (h : readDigits? ⟨0, 0, false, false⟩ (whole ++ point) = some (m, s)) :
    Keeps (Verdict.readDigits (Verdict.readDigits 0 whole) fraction) fraction.length m s := by
  obtain ⟨hroom, digit, hrest⟩ := readDigits?_whole_append hwhole (by decide) h
  rcases hpoint with ⟨rfl, rfl⟩ | rfl
  · unfold readDigits? at hrest
    split at hrest
    next =>
      cases hrest
      exact .refl _ _
    next => cases hrest
  · have hkeeps := readDigits?_fraction hfraction hroom hrest
    rwa [Nat.zero_add] at hkeeps

/-- The power of ten by which an exponent multiplies, or the one by which it divides. -/
def factor (counts : Bool) (n : Nat) : Nat := if counts then n else 0

theorem lt_roundTo (m k : Nat) : m < (roundTo m k + 1) * tenPow k := by
  have hquotient : m / tenPow k ≤ roundTo m k := Nat.div_le_div_right (Nat.le_add_right m _)
  calc m < tenPow k * (m / tenPow k + 1) := Nat.lt_mul_div_succ m (tenPow_pos k)
    _ ≤ tenPow k * (roundTo m k + 1) := Nat.mul_le_mul_left _ (Nat.succ_le_succ hquotient)
    _ = (roundTo m k + 1) * tenPow k := Nat.mul_comm _ _

/-- An exponent moves the point of what was read. It brings no digits back that were lost before the
point: then the number has outgrown its mantissa. -/
theorem shift?_lt {digits places mantissa scale n : Nat} {negative : Bool}
    (hkeeps : Keeps digits places m s) (h : shift? m s negative n = some (mantissa, scale))
    (hroom : mantissa < mantissaLimit) :
    n ≤ maxScale ∧ digits * tenPow (factor (!negative) n) * tenPow scale <
      (mantissa + 1) * tenPow (places + factor negative n) := by
  unfold shift? at h
  split at h
  next => cases h
  next hn =>
    refine ⟨Nat.not_lt.mp hn, ?_⟩
    cases negative with
    | true =>
      generalize hkept : min s (maxScale - n) = kept at h
      cases h
      have hs : kept + (s - kept) = s := by omega
      have hlt : digits * tenPow kept < (roundTo m (s - kept) + 1) * tenPow places := by
        refine Nat.lt_of_mul_lt_mul_right (a := tenPow (s - kept)) ?_
        calc digits * tenPow kept * tenPow (s - kept)
            = digits * tenPow s := by rw [Nat.mul_assoc, ← tenPow_add, hs]
          _ < (m + 1) * tenPow places := hkeeps.lt
          _ ≤ (roundTo m (s - kept) + 1) * tenPow (s - kept) * tenPow places :=
              Nat.mul_le_mul_right _ (lt_roundTo m (s - kept))
          _ = (roundTo m (s - kept) + 1) * tenPow places * tenPow (s - kept) :=
              Nat.mul_right_comm _ _ _
      calc digits * tenPow 0 * tenPow (kept + n)
          = digits * tenPow kept * tenPow n := by
              rw [tenPow_zero, Nat.mul_one, tenPow_add, Nat.mul_assoc]
        _ < (roundTo m (s - kept) + 1) * tenPow places * tenPow n :=
            Nat.mul_lt_mul_of_pos_right hlt (tenPow_pos n)
        _ = (roundTo m (s - kept) + 1) * tenPow (places + n) := by rw [tenPow_add, Nat.mul_assoc]
    | false =>
      change digits * tenPow n * tenPow scale < (mantissa + 1) * tenPow places
      simp only [Bool.false_eq_true, if_false] at h
      split at h
      next hle =>
        cases h
        rw [Nat.mul_assoc, ← tenPow_add, Nat.add_sub_cancel' hle]
        exact hkeeps.lt
      next hlt =>
        cases h
        have hsum : n - s + s = n := by omega
        rcases hkeeps.full with ⟨rfl, rfl⟩ | hfull | hfull
        · calc m * tenPow n * tenPow 0 = m * tenPow (n - s) * tenPow s := by
                rw [tenPow_zero, Nat.mul_one, Nat.mul_assoc, ← tenPow_add, hsum]
            _ < (m * tenPow (n - s) + 1) * tenPow s :=
                Nat.mul_lt_mul_of_pos_right (Nat.lt_succ_self _) (tenPow_pos s)
        · exact absurd hn (by omega)
        · have hten : 10 ≤ tenPow (n - s) :=
            Nat.pow_le_pow_right (show 0 < 10 by decide) (show 1 ≤ n - s by omega)
          have := Nat.mul_le_mul_left m hten
          omega

end Decimal

namespace Double

theorem span_isDigit (s : List Char) : s = (s.span Char.isDigit).1 ++ (s.span Char.isDigit).2 ∧
    ∀ c ∈ (s.span Char.isDigit).1, c.isDigit = true := by
  rw [List.span_eq_takeWhile_dropWhile]
  exact ⟨List.takeWhile_append_dropWhile.symm,
    fun c hc => List.all_eq_true.mp List.all_takeWhile c hc⟩

theorem takeFraction_eq (s : List Char) : ∃ point, s = point ++ (takeFraction s).2 ∧
    (point = [] ∧ (takeFraction s).1 = [] ∨ point = '.' :: (takeFraction s).1) ∧
    ∀ c ∈ (takeFraction s).1, c.isDigit = true := by
  unfold takeFraction
  split
  next rest =>
    obtain ⟨hfraction, hdigits⟩ := span_isDigit rest
    exact ⟨_, by rw [List.cons_append, ← hfraction], .inr rfl, hdigits⟩
  next => exact ⟨[], rfl, .inl ⟨rfl, rfl⟩, nofun⟩

theorem readDecimal?_eq_some {negative : Bool} {s : List Char} {x : Double}
    (h : readDecimal? negative s = some x) :
    ∃ whole point fraction rest e, s = whole ++ (point ++ rest) ∧
      (∀ c ∈ whole, c.isDigit = true) ∧ (∀ c ∈ fraction, c.isDigit = true) ∧
      (point = [] ∧ fraction = [] ∨ point = '.' :: fraction) ∧ readExponent? rest = some e ∧
      x = ofDecimal negative (readDigits (readDigits 0 whole) fraction) (e - fraction.length) := by
  obtain ⟨hwhole, hdigits⟩ := span_isDigit s
  obtain ⟨point, hrest, hpoint, hfraction⟩ := takeFraction_eq (s.span Char.isDigit).2
  unfold readDecimal? at h
  dsimp only at h
  split at h
  next => cases h
  next =>
    obtain ⟨e, he, rfl⟩ := Option.map_eq_some_iff.mp h
    exact ⟨_, point, _, _, e, by rw [← hrest, ← hwhole], hdigits, hfraction, hpoint, he, rfl⟩

/-- Exponents of few digits are counted out. -/
theorem foldl_exponentDigit {n : Nat} {ds : List Char} (h : readDigits n ds ≤ maxScale) :
    ds.foldl exponentDigit n = readDigits n ds := by
  induction ds generalizing n with
  | nil => rfl
  | cons c ds ih =>
    have hn : n < 65536 := by
      have hle := Nat.le_trans (le_readDigits n (c :: ds)) h
      have hscale : maxScale = 28 := rfl
      omega
    rw [List.foldl_cons, exponentDigit, if_pos hn]
    exact ih h

/-- Decimals read the same exponents, and some that start with two signs. -/
theorem decimal_readExponent? {negative : Bool} {tail ds : List Char}
    (hsign : takeSign tail = (negative, ds)) (hds : (ds.isEmpty || !ds.all Char.isDigit) = false) :
    Decimal.readExponent? tail = some (negative, readDigits 0 ds) := by
  have hnone : takeSign ds = (false, ds) := by
    cases ds with
    | nil => rfl
    | cons c ds =>
      simp only [List.isEmpty_cons, List.all_cons, Bool.false_or, Bool.not_eq_false',
        Bool.and_eq_true] at hds
      have hminus : c ≠ '-' := ne_of_isDigit hds.1 rfl
      have hplus : c ≠ '+' := ne_of_isDigit hds.1 rfl
      simp [takeSign, hminus, hplus]
  unfold takeSign at hsign
  split at hsign
  next rest =>
    cases hsign
    simp [Decimal.readExponent?, hnone, hds]
  next rest =>
    cases hsign
    simp [Decimal.readExponent?, takeSign, hds]
  next =>
    cases hsign
    simp [Decimal.readExponent?, hnone, hds]

theorem readExponent?_eq_some {s : List Char} {e : Int} (h : readExponent? s = some e) :
    (s = [] ∧ e = 0) ∨ ∃ c tail negative n, s = c :: tail ∧ (c = 'e' ∨ c = 'E') ∧
      Decimal.readExponent? tail = some (negative, n) ∧
      (n ≤ maxScale → e = (Decimal.factor (!negative) n : Int) - Decimal.factor negative n) := by
  unfold readExponent? at h
  split at h
  next =>
    cases h
    exact .inl ⟨rfl, rfl⟩
  next c tail =>
    split at h
    next hc =>
      generalize hsign : takeSign tail = sign at h
      obtain ⟨negative, ds⟩ := sign
      dsimp only at h
      split at h
      next => cases h
      next hds =>
        cases h
        refine .inr ⟨c, tail, negative, _, rfl, hc,
          decimal_readExponent? hsign (Bool.not_eq_true _ ▸ hds), fun hn => ?_⟩
        rw [foldl_exponentDigit hn]
        cases negative <;> simp [Decimal.factor]
    next => cases h

end Double

namespace Decimal

/-- Digits and a point go on up to the mark of the exponent. -/
theorem span_exponent {whole point fraction rest : List Char}
    (hwhole : ∀ c ∈ whole, c.isDigit = true) (hfraction : ∀ c ∈ fraction, c.isDigit = true)
    (hpoint : point = [] ∧ fraction = [] ∨ point = '.' :: fraction)
    (hrest : ∀ c, rest.head? = some c → c = 'e' ∨ c = 'E') :
    (whole ++ (point ++ rest)).span (fun c => c != 'e' && c != 'E') = (whole ++ point, rest) := by
  have hplain : ∀ c ∈ whole ++ point, c.isDigit = true ∨ c = '.' := by
    intro c hc
    rcases List.mem_append.mp hc with hc | hc
    · exact .inl (hwhole c hc)
    · rcases hpoint with ⟨rfl, _⟩ | rfl
      · cases hc
      · rcases List.mem_cons.mp hc with rfl | hc
        · exact .inr rfl
        · exact .inl (hfraction c hc)
  rw [← List.append_assoc]
  refine span_append (fun c hc => ?_) (fun c hc => ?_)
  · rcases hplain c hc with hdigit | rfl
    · simp [ne_of_isDigit hdigit (d := 'e') rfl, ne_of_isDigit hdigit (d := 'E') rfl]
    · rfl
  · rcases hrest c hc with rfl | rfl <;> rfl

/-- What is read both ways: the number is the nearest to `digits * 10 ^ (a - b)`, which is less than
one unit of the last place above the decimal. -/
theorem readUnsigned?_lt {negative : Bool} {body : List Char} {x : Double} {mantissa scale : Nat}
    (hx : Double.readDecimal? negative body = some x)
    (hd : readUnsigned? body = some (mantissa, scale)) (hroom : mantissa < mantissaLimit) :
    ∃ digits a b : Nat, x = .ofDecimal negative digits ((a : Int) - b) ∧ a ≤ maxScale ∧
      digits * tenPow a * tenPow scale < (mantissa + 1) * tenPow b := by
  obtain ⟨whole, point, fraction, rest, e, rfl, hwhole, hfraction, hpoint, he, rfl⟩ :=
    Double.readDecimal?_eq_some hx
  have hexponent := Double.readExponent?_eq_some he
  have hspan : (whole ++ (point ++ rest)).span (fun c => c != 'e' && c != 'E') =
      (whole ++ point, rest) := by
    refine span_exponent hwhole hfraction hpoint fun c hc => ?_
    rcases hexponent with ⟨rfl, _⟩ | ⟨d, tail, _, _, rfl, hd, _⟩
    · cases hc
    · cases hc
      exact hd
  rw [readUnsigned?, hspan] at hd
  dsimp only at hd
  cases hdigits : readDigits? ⟨0, 0, false, false⟩ (whole ++ point) with
  | none => simp [hdigits] at hd
  | some read =>
    obtain ⟨m, s⟩ := read
    have hkeeps := readDigits?_keeps hwhole hfraction hpoint hdigits
    rw [hdigits] at hd
    rcases hexponent with ⟨rfl, rfl⟩ | ⟨c, tail, sign, n, rfl, _, hread, hvalue⟩
    · cases hd
      refine ⟨_, 0, fraction.length, rfl, Nat.zero_le _, ?_⟩
      rw [tenPow_zero, Nat.mul_one]
      exact hkeeps.lt
    · simp only [hread, Option.bind_some] at hd
      obtain ⟨hn, hlt⟩ := shift?_lt hkeeps hd hroom
      refine ⟨_, factor (!sign) n, fraction.length + factor sign n, ?_, ?_, hlt⟩
      · rw [hvalue hn]
        congr 1
        omega
      · unfold factor
        split
        · exact hn
        · exact Nat.zero_le _

/-- A text that denotes less than one more than the greatest double is not rounded above it. -/
theorem natAbs_rank_ofDecimal_le (negative : Bool) {digits a b : Nat} (ha : a ≤ 400)
    (h : digits * tenPow a < (greatestDouble + 1) * tenPow b) :
    (Double.ofDecimal negative digits ((a : Int) - b)).rank.natAbs ≤
      greatestDouble * unitsPerOne := by
  have hround :
      roundUnits ((greatestDouble + 1) * unitsPerOne) 1 ≤ greatestDouble * unitsPerOne := by
    decide +kernel
  have hunits : ∀ num den, 0 < den → num ≤ (greatestDouble + 1) * unitsPerOne * den →
      (Double.ofUnits negative num den).rank.natAbs ≤ greatestDouble * unitsPerOne := by
    intro num den hden hnum
    refine Double.natAbs_rank_ofUnits_le ?_
      (Nat.lt_of_lt_of_le greatestDouble_lt_unitBound unitBound_le_unitLimit)
    refine Nat.le_trans (roundUnits_mono hden Nat.one_pos ?_) hround
    rwa [Nat.mul_one]
  unfold Double.ofDecimal
  split
  next => exact hunits 0 1 Nat.one_pos (Nat.zero_le _)
  next =>
    rw [if_neg (by omega)]
    split
    next => exact hunits 0 1 Nat.one_pos (Nat.zero_le _)
    next =>
      split
      next hle =>
        obtain ⟨k, rfl⟩ : ∃ k, a = k + b := ⟨a - b, by omega⟩
        have hk : ((k + b : Nat) - b : Int).toNat = k := by omega
        rw [tenPow_add, ← Nat.mul_assoc] at h
        have hdigits := Nat.le_of_lt (Nat.lt_of_mul_lt_mul_right h)
        refine hunits _ 1 Nat.one_pos ?_
        rw [hk, Nat.mul_one]
        exact Nat.mul_le_mul_right _ hdigits
      next hlt =>
        obtain ⟨k, rfl⟩ : ∃ k, b = k + a := ⟨b - a, by omega⟩
        have hk : (-((a : Int) - (k + a : Nat))).toNat = k := by omega
        rw [tenPow_add, ← Nat.mul_assoc] at h
        have hdigits := Nat.le_of_lt (Nat.lt_of_mul_lt_mul_right h)
        refine hunits _ _ (tenPow_pos _) ?_
        rw [hk, Nat.mul_right_comm]
        exact Nat.mul_le_mul_right _ hdigits

theorem rank_ofDecimal_nonneg (digits : Nat) (exponent : Int) :
    0 ≤ (Double.ofDecimal false digits exponent).rank :=
  Double.ofDecimal_cases (P := fun x => 0 ≤ x.rank) Double.rank_infinite_nonneg
    Double.rank_ofUnits_nonneg digits exponent

theorem rank_ofDecimal_nonpos (digits : Nat) (exponent : Int) :
    (Double.ofDecimal true digits exponent).rank ≤ 0 :=
  Double.ofDecimal_cases (P := fun x => x.rank ≤ 0) Double.rank_infinite_nonpos
    Double.rank_ofUnits_nonpos digits exponent

theorem ofParts?_eq_some {m : Int} {s : Nat} {d : Decimal} (h : ofParts? m s = some d) :
    d.mantissa = m ∧ d.scale = s ∧ m.natAbs < mantissaLimit := by
  unfold ofParts? at h
  split at h
  next hfits =>
    cases h
    exact ⟨rfl, rfl, hfits.1⟩
  next => cases h

/-- A text whose decimal is within the greatest double is read as a number within it as well, with
the same sign. -/
theorem ofText?_bounds {s : List Char} {x : Double} {d : Decimal} (hx : Double.ofText? s = some x)
    (hfinite : x.isFinite = true) (hd : ofText? s = some d) :
    (|d.value| ≤ greatestDouble → x.rank.natAbs ≤ greatestDouble * unitsPerOne) ∧
      (0 ≤ d.value ∧ 0 ≤ x.rank ∨ d.value ≤ 0 ∧ x.rank ≤ 0) := by
  unfold Double.ofText? at hx
  unfold ofText? at hd
  generalize takeSign s = sign at hx hd
  obtain ⟨negative, body⟩ := sign
  dsimp only at hx hd
  split at hx
  next =>
    cases hx
    cases hfinite
  split at hx
  next =>
    cases hx
    cases hfinite
  obtain ⟨⟨mantissa, scale⟩, hread, hparts⟩ := Option.bind_eq_some_iff.mp hd
  obtain ⟨hmantissa, rfl, hroom⟩ := ofParts?_eq_some hparts
  have habs : d.mantissa.natAbs = mantissa := by
    rw [hmantissa]
    cases negative <;> simp
  rw [← hmantissa, habs] at hroom
  obtain ⟨digits, a, b, rfl, ha, hlt⟩ := readUnsigned?_lt hx hread hroom
  constructor
  · intro hvalue
    rw [abs_value_le_iff, habs] at hvalue
    refine natAbs_rank_ofDecimal_le negative (Nat.le_trans ha (by decide)) ?_
    refine Nat.lt_of_mul_lt_mul_right (a := tenPow d.scale) ?_
    calc digits * tenPow a * tenPow d.scale
        < (mantissa + 1) * tenPow b := hlt
      _ ≤ (greatestDouble + 1) * tenPow d.scale * tenPow b := by
          refine Nat.mul_le_mul_right _ ?_
          rw [Nat.add_mul, Nat.one_mul]
          exact Nat.add_le_add hvalue (tenPow_pos d.scale)
      _ = (greatestDouble + 1) * tenPow b * tenPow d.scale := Nat.mul_right_comm _ _ _
  · have hscale : (0 : ℚ) ≤ (tenPow d.scale : ℕ) := Nat.cast_nonneg _
    rw [value, hmantissa]
    cases negative with
    | false =>
      exact .inl ⟨div_nonneg (by simp) hscale, rank_ofDecimal_nonneg _ _⟩
    | true =>
      exact .inr ⟨div_nonpos_of_nonpos_of_nonneg (by simp) hscale, rank_ofDecimal_nonpos _ _⟩

end Decimal

end Verdict
