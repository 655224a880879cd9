import Verdict.Proofs.Call.Integer

namespace Verdict.Function

/-- A text that begins, after blanks and a sign, with the mark of a hexadecimal number, and what follows
the mark. -/
def HexMarked (s rest : List Char) : Prop :=
  ∃ blanks sign x, s = blanks ++ (sign ++ '0' :: x :: rest) ∧ (∀ c ∈ blanks, isBlank c = true) ∧
    sign ∈ signs ∧ x ∈ ['x', 'X']

section Default

variable {s body rest : List Char} {v w : Value}

theorem takeHexMark_eq_some :
    takeHexMark s = some rest ↔ ∃ x ∈ ['x', 'X'], s = '0' :: x :: rest := by
  constructor
  · intro h
    unfold takeHexMark at h
    split at h
    next =>
      cases h
      exact ⟨'x', by decide, rfl⟩
    next =>
      cases h
      exact ⟨'X', by decide, rfl⟩
    next => cases h
  · rintro ⟨x, hx, rfl⟩
    simp only [List.mem_cons, List.not_mem_nil, or_false] at hx
    rcases hx with rfl | rfl
    · rfl
    · rfl

theorem hexMarked_iff : HexMarked s rest ↔ takeHexMark (takeSign (trimStart s)).2 = some rest := by
  rw [takeHexMark_eq_some]
  constructor
  · rintro ⟨blanks, sign, x, rfl, hblanks, hsign, hx⟩
    have hzero : ∀ c, ('0' :: x :: rest).head? = some c → isBlank c = false ∧ c ≠ '-' ∧ c ≠ '+' := by
      intro c hc
      cases hc
      decide
    have hread := takeSign_trimStart blanks hblanks hsign (fun c hc => (hzero c hc).2) fun c hc =>
      (hzero c hc).1
    exact ⟨x, hx, by rw [hread]⟩
  · rintro ⟨x, hx, hbody⟩
    obtain ⟨sign, hsign, htrimmed, _⟩ := takeSign_cases (trimStart s)
    rw [hbody] at htrimmed
    refine ⟨s.takeWhile isBlank, sign, x, ?_, ?_, hsign, hx⟩
    · rw [← htrimmed, trimStart, List.takeWhile_append_dropWhile]
    · intro c hc
      exact List.mem_takeWhile_imp hc

/-- A base that converts to zero is the base ten. -/
theorem radixArgument_of_toInteger_eq_zero (hw : w.toInteger = 0) : radixArgument w = 10 := by
  have hbits : (0 : Int64).toUInt64.toUInt32.toNat = 0 := by decide
  unfold radixArgument
  split
  next => rfl
  next => rw [hw, hbits, if_pos rfl]

theorem foldl_digits_eq_zero {r : Nat} (hr : 0 < r) (acc : Nat) (ds : List Nat) :
    ds.foldl (fun acc d => acc * r + d) acc = 0 ↔ acc = 0 ∧ ∀ d ∈ ds, d = 0 := by
  induction ds generalizing acc with
  | nil => simp
  | cons d ds ih =>
    have hstep : acc * r + d = 0 ↔ acc = 0 ∧ d = 0 := by
      rw [Nat.add_eq_zero_iff, Nat.mul_eq_zero]
      omega
    rw [List.foldl_cons, ih, hstep, List.forall_mem_cons, and_assoc]

theorem ofDigits_eq_zero {r : Nat} (hr : 0 < r) (negative : Bool) (ds : List Nat) :
    ofDigits r negative ds = .integer 0 ↔ ∀ d ∈ ds, d = 0 := by
  have hfold := foldl_digits_eq_zero hr 0 ds
  rw [eq_self_iff_true, true_and] at hfold
  rw [← hfold]
  cases hword : int64? (ds.foldl (fun acc d => acc * r + d) 0 : Nat) with
  | none =>
    have hzero : int64? 0 = some 0 := by decide
    rw [ofDigits_of_none rfl hword]
    constructor
    · intro h
      cases h
    · intro h
      rw [h, Nat.cast_zero, hzero] at hword
      cases hword
  | some k =>
    have hk := int64?_eq_some hword
    rw [ofDigits_of_some rfl hword, Value.integer.injEq]
    have hzero : (ds.foldl (fun acc d => acc * r + d) 0 : Nat) = 0 ↔ k = 0 := by
      rw [← Int64.toInt_inj, hk, Int64.toInt_zero]
      omega
    rw [hzero]
    cases negative with
    | false => rfl
    | true => rw [if_pos rfl, ← Int64.neg_inj, Int64.neg_neg, Int64.neg_zero]

theorem readBase_sixteen_eq_zero (negative : Bool) (rest : List Char) :
    readBase 16 negative rest = .integer 0 ↔
      leadingDigits 16 rest ≠ [] ∧ ∀ d ∈ leadingDigits 16 rest, d = 0 := by
  by_cases hnil : leadingDigits 16 rest = []
  · rw [readBase_of_eq_nil hnil]
    constructor
    · intro h
      cases h
    · intro h
      exact absurd hnil h.1
  · rw [readBase_of_ne_nil (by decide) hnil, ofDigits_eq_zero (by decide), and_iff_right hnil]

/-- The mark is read as the digit zero where it does not count. -/
theorem readBase_ten_of_mark (h : takeHexMark body = some rest) (negative : Bool) :
    readBase 10 negative body = .integer 0 := by
  obtain ⟨x, hx, rfl⟩ := takeHexMark_eq_some.mp h
  have hletter : digit? 10 x = none := by
    simp only [List.mem_cons, List.not_mem_nil, or_false] at hx
    rcases hx with rfl | rfl
    · rfl
    · rfl
  have hzero : digit? 10 '0' = some 0 := by decide
  have hdigits : leadingDigits 10 ('0' :: x :: rest) = [0] := by
    simp only [leadingDigits, hzero, hletter]
  rw [readBase_of_ne_nil (by decide) (by rw [hdigits]; decide), hdigits]
  exact (ofDigits_eq_zero (by decide) negative [0]).mpr (by decide)

/-- A call with a base other than sixteen does not look for the mark. -/
theorem parseInt_of_radixArgument {r : Nat} (hw : radixArgument w = r) (hr : r ≠ 16) :
    parseInt none [v, w] =
      .ok (readBase r (takeSign (trimStart v.text.toList)).1 (takeSign (trimStart v.text.toList)).2) := by
  have hasked : decide (2 ≤ [v, w].length) = true := rfl
  have hplain : ¬ (r = 16 ∨ (!true) = true) := by simp [hr]
  simp only [parseInt_eq, argument, List.getElem?_cons_zero, List.getElem?_cons_succ,
    Option.getD_some, hw, hasked, chooseRadix, if_neg hplain]

theorem parseInt_sixteen_of_mark (h : takeHexMark (takeSign (trimStart v.text.toList)).2 = some rest) :
    parseInt none [v, .integer 16] =
      .ok (readBase 16 (takeSign (trimStart v.text.toList)).1 rest) := by
  have hradix : radixArgument (.integer 16) = 16 := by
    apply radixArgument_of_toInt (by decide)
    exact Value.toInt_toInteger_ofNat (by decide)
  simp only [parseInt_eq, argument, List.getElem?_cons_zero, List.getElem?_cons_succ,
    Option.getD_some, hradix, chooseRadix, true_or, if_true, h]

theorem parseInt_alone :
    parseInt none [v] = .ok (match takeHexMark (takeSign (trimStart v.text.toList)).2 with
      | some rest => readBase 16 (takeSign (trimStart v.text.toList)).1 rest
      | none => readBase 10 (takeSign (trimStart v.text.toList)).1
          (takeSign (trimStart v.text.toList)).2) := by
  have hradix : radixArgument .undefined = 10 := by decide
  have hasked : decide (2 ≤ [v].length) = false := rfl
  simp only [parseInt_eq, argument, List.getElem?_cons_zero, List.getElem?_cons_succ,
    List.getElem?_nil, Option.getD_some, Option.getD_none, hradix, hasked, chooseRadix,
    Bool.not_false, or_true, if_true]
  cases takeHexMark (takeSign (trimStart v.text.toList)).2 with
  | none => rfl
  | some rest => rfl

/-- A base that converts to zero is the base ten. It reads a text as a call without a base does, but for
the mark of a hexadecimal number: with it, the one call gives zero and the other the number. -/
theorem parseInt_default (v : Value) {w : Value} (hw : w.toInteger = 0) :
    parseInt none [v, w] = parseInt none [v, .integer 10] ∧
      ((∀ rest, ¬ HexMarked v.text.toList rest) → parseInt none [v, w] = parseInt none [v]) ∧
      (∀ rest, HexMarked v.text.toList rest → parseInt none [v, w] = .ok (.integer 0) ∧
        parseInt none [v] = parseInt none [v, .integer 16]) ∧
      (parseInt none [v, w] = parseInt none [v] ↔ ∀ rest, HexMarked v.text.toList rest →
        leadingDigits 16 rest ≠ [] ∧ ∀ d ∈ leadingDigits 16 rest, d = 0) := by
  have hten : radixArgument (.integer 10) = 10 := by
    apply radixArgument_of_toInt (by decide)
    exact Value.toInt_toInteger_ofNat (by decide)
  have hasked := parseInt_of_radixArgument (v := v) (radixArgument_of_toInteger_eq_zero hw) (by decide)
  have hfull := parseInt_of_radixArgument (v := v) hten (by decide)
  have halone := parseInt_alone (v := v)
  refine ⟨by rw [hasked, hfull], ?_⟩
  simp only [hexMarked_iff]
  cases hmark : takeHexMark (takeSign (trimStart v.text.toList)).2 with
  | none =>
    simp only [hmark] at halone
    have hsame : parseInt none [v, w] = parseInt none [v] := by rw [hasked, halone]
    exact ⟨fun _ => hsame, nofun, fun _ => nofun, fun _ => hsame⟩
  | some rest =>
    simp only [hmark] at halone
    have hsixteen := parseInt_sixteen_of_mark hmark
    have hzero := readBase_ten_of_mark hmark (takeSign (trimStart v.text.toList)).1
    refine ⟨fun hnone => absurd rfl (hnone rest), ?_, ?_⟩
    · intro _ _
      exact ⟨by rw [hasked, hzero], by rw [halone, hsixteen]⟩
    · rw [hasked, hzero, halone, Except.ok.injEq, eq_comm, readBase_sixteen_eq_zero]
      simp only [Option.some.injEq, forall_eq']

theorem parseInt_default_unmarked :
    Value.null.toInteger = 0 ∧ (∀ rest, ¬ HexMarked " -12px".toList rest) ∧
      parseInt none [.string " -12px", .null] = parseInt none [.string " -12px"] ∧
      parseInt none [.string " -12px", .null] = parseInt none [.string " -12px", .integer 10] := by
  have hnull : Value.null.toInteger = 0 := by decide +kernel
  have hunmarked : ∀ rest, ¬ HexMarked " -12px".toList rest := by
    intro rest hrest
    have hnone : takeHexMark (takeSign (trimStart " -12px".toList)).2 = none := by decide
    rw [hexMarked_iff, hnone] at hrest
    cases hrest
  obtain ⟨hten, hplain, _, _⟩ := parseInt_default (.string " -12px") hnull
  exact ⟨hnull, hunmarked, hplain hunmarked, hten⟩

/-- With the mark, a base of zero and no base are different. -/
theorem parseInt_default_marked :
    (Value.integer 0).toInteger = 0 ∧
      parseInt none [.string "0x1A", .integer 0] = .ok (.integer 0) ∧
      parseInt none [.string "0x1A"] = .ok (.integer 26) ∧
      parseInt none [.string "0x1A", .integer 0] ≠ parseInt none [.string "0x1A"] := by
  have hzero : (Value.integer 0).toInteger = 0 := Value.toInteger_integer (by decide)
  have hasked : parseInt none [.string "0x1A", .integer 0] = .ok (.integer 0) :=
    parseInt_of_radixArgument (radixArgument_of_toInteger_eq_zero hzero) (by decide)
  have halone : parseInt none [.string "0x1A"] = .ok (.integer 26) := parseInt_alone
  refine ⟨hzero, hasked, halone, ?_⟩
  intro hsame
  rw [hasked, halone] at hsame
  cases hsame

end Default

end Verdict.Function
