import Verdict.Call.Functions
import Verdict.Proofs.Call.Position
import Verdict.Proofs.Number.Base

namespace Verdict

namespace Function

section Reading

variable {r : Nat} {ds : List Nat} {cs : List Char}

theorem leadingDigits_of_forall₂ (h : List.Forall₂ IsDigitOf ds cs) (hds : ∀ d ∈ ds, d < r) :
    leadingDigits r cs = ds := by
  induction h with
  | nil => rfl
  | cons hc _ ih =>
    have hdigit := digit?_of_isDigitOf hc (hds _ List.mem_cons_self)
    have hrest := ih fun d hd => hds d (List.mem_cons_of_mem _ hd)
    simp only [leadingDigits, hdigit, hrest]

/-- Up to the base sixteen no digit is the letter of the mark. -/
theorem takeHexMark_of_forall₂ (h : List.Forall₂ IsDigitOf ds cs) (hds : ∀ d ∈ ds, d < 16) :
    takeHexMark cs = none := by
  unfold takeHexMark
  split
  next =>
    obtain ⟨d, rest, _, htail, rfl⟩ := List.forall₂_cons_right_iff.mp h
    obtain ⟨e, rest, hx, _, rfl⟩ := List.forall₂_cons_right_iff.mp htail
    exact absurd rfl (ne_mark_of_isDigitOf hx (hds e (by simp))).1
  next =>
    obtain ⟨d, rest, _, htail, rfl⟩ := List.forall₂_cons_right_iff.mp h
    obtain ⟨e, rest, hx, _, rfl⟩ := List.forall₂_cons_right_iff.mp htail
    exact absurd rfl (ne_mark_of_isDigitOf hx (hds e (by simp))).2
  next => rfl

/-- The blanks before a number are dropped and its sign is taken off. -/
theorem takeSign_trimStart (blanks : List Char) {sign body : List Char}
    (hblanks : ∀ c ∈ blanks, isBlank c = true) (hsign : sign ∈ signs) (hsignless : Signless body)
    (hbody : ∀ c, body.head? = some c → isBlank c = false) :
    takeSign (trimStart (blanks ++ (sign ++ body))) = (decide (sign = ['-']), body) := by
  have htrim : trimStart (sign ++ body) = sign ++ body := by
    have hhead : ∀ c, (sign ++ body).head? = some c → isBlank c = false := by
      simp only [signs, List.mem_cons, List.not_mem_nil, or_false] at hsign
      intro c hc
      rcases hsign with rfl | rfl | rfl
      · exact hbody c hc
      · cases hc
        rfl
      · cases hc
        rfl
    cases h : sign ++ body with
    | nil => rfl
    | cons c rest =>
      rw [h] at hhead
      rw [trimStart, List.dropWhile_cons_of_neg (by simp [hhead c rfl])]
  have hdrop : trimStart (blanks ++ (sign ++ body)) = trimStart (sign ++ body) :=
    List.dropWhile_append_of_pos hblanks
  rw [hdrop, htrim, takeSign_append hsign fun _ => hsignless]

theorem takeSign_of_forall₂ (n : Int) (h : List.Forall₂ IsDigitOf ds cs) :
    takeSign (trimStart (if n < 0 then '-' :: cs else cs)) = (decide (n < 0), cs) := by
  have hhead : ∀ c, cs.head? = some c → isBlank c = false ∧ c ≠ '-' ∧ c ≠ '+' := by
    intro c hc
    cases h with
    | nil => cases hc
    | cons hdigit =>
      cases hc
      exact isBlank_of_isDigitOf hdigit
  have hread : ∀ sign ∈ signs, takeSign (trimStart (sign ++ cs)) = (decide (sign = ['-']), cs) := by
    intro sign hsign
    exact takeSign_trimStart [] nofun hsign (fun c hc => (hhead c hc).2) fun c hc => (hhead c hc).1
  split
  next hn =>
    rw [decide_eq_true hn]
    exact hread ['-'] (by decide)
  next hn =>
    rw [decide_eq_false hn]
    exact hread [] (by decide)

theorem ofDigits_of_some {negative : Bool} {m : Nat} {k : Int64}
    (hm : ds.foldl (fun acc d => acc * r + d) 0 = m) (hk : int64? m = some k) :
    ofDigits r negative ds = .integer (if negative then -k else k) := by
  simp only [ofDigits, hm, hk]

/-- The number that digits denote, rounded after each of them. -/
def roundDigits (r : Nat) (negative : Bool) (ds : List Nat) : Double :=
  let x := ds.foldl (fun acc d => acc * .ofInt r + .ofInt d) (Double.ofInt 0)
  if negative then -x else x

theorem ofDigits_of_none {m : Nat} (hm : ds.foldl (fun acc d => acc * r + d) 0 = m)
    (hnone : int64? m = none) (negative : Bool) :
    ofDigits r negative ds = .float (roundDigits r negative ds) := by
  simp only [ofDigits, hm, hnone, roundDigits]

/-- An integer of 64 bits is the one that its digits denote, unless they are too large without the
sign. -/
theorem ofDigits_natAbs (r : Nat) {k : Int64} (hk : k ≠ Int64.minValue) :
    ofDigits r (decide (k.toInt < 0)) (baseDigits r k.toInt.natAbs) = .integer k := by
  have hlow := Int64.minValue_le_toInt k
  have hhigh := Int64.toInt_le k
  have hleast : k.toInt ≠ Int64.minValue.toInt := fun h => hk (Int64.toInt_inj.mp h)
  rw [Int64.toInt_minValue] at hleast hlow
  rw [Int64.toInt_maxValue] at hhigh
  have hfits : int64? (k.toInt.natAbs : Int) = some (Int64.ofInt k.toInt.natAbs) := by
    unfold int64?
    rw [Int64.toInt_minValue, Int64.toInt_maxValue, if_pos (by omega)]
  rw [ofDigits_of_some (foldl_baseDigits r _) hfits]
  by_cases hneg : k.toInt < 0
  · have habs : ((k.toInt.natAbs : Nat) : Int) = -k.toInt := by omega
    rw [habs, Int64.ofInt_neg, Int64.ofInt_toInt, decide_eq_true hneg, if_pos rfl, Int64.neg_neg]
  · have habs : ((k.toInt.natAbs : Nat) : Int) = k.toInt := by omega
    rw [habs, Int64.ofInt_toInt, decide_eq_false hneg, if_neg Bool.false_ne_true]

theorem ofDigits_minValue (r : Nat) (negative : Bool) :
    ofDigits r negative (baseDigits r Int64.minValue.toInt.natAbs) =
      .float (roundDigits r negative (baseDigits r Int64.minValue.toInt.natAbs)) := by
  have hlarge : int64? (Int64.minValue.toInt.natAbs : Int) = none := by decide
  exact ofDigits_of_none (foldl_baseDigits r _) hlarge negative

/-- The reading of digits in a base, which is the last part of `parseInt`. The sign has been taken
off by then. -/
def readBase (r : Nat) (negative : Bool) (body : List Char) : Value :=
  let ds := if 2 ≤ r ∧ r ≤ 36 then leadingDigits r body else []
  if ds.isEmpty then .float .nan else ofDigits r negative ds

theorem readBase_of_ne_nil (hr : 2 ≤ r ∧ r ≤ 36) {body : List Char} (h : leadingDigits r body ≠ [])
    (negative : Bool) : readBase r negative body = ofDigits r negative (leadingDigits r body) := by
  have hempty : (leadingDigits r body).isEmpty = false := by
    rw [Bool.eq_false_iff, ne_eq, List.isEmpty_iff]
    exact h
  simp only [readBase, if_pos hr, hempty, Bool.false_eq_true, if_false]

theorem readBase_of_eq_nil {body : List Char} (h : leadingDigits r body = []) (negative : Bool) :
    readBase r negative body = .float .nan := by
  simp only [readBase, h, ite_self, List.isEmpty_nil, if_true]

/-- The sign and the base decide how the digits of a call are read. -/
theorem parseInt_eq (args : List Value) :
    parseInt none args =
      let signed := takeSign (trimStart (argument args 0).text.toList)
      let based := chooseRadix (radixArgument (argument args 1)) (2 ≤ args.length) signed.2
      .ok (readBase based.1 signed.1 based.2) :=
  rfl

theorem radixArgument_of_toInt {w : Value} (hr : 2 ≤ r ∧ r ≤ 36) (hw : w.toInteger.toInt = r) :
    radixArgument w = r := by
  have hword : w.toInteger = Int64.ofNat r := by
    apply Int64.toInt_inj.mp
    rw [hw, Int64.toInt_ofNat_of_lt (by omega)]
  have hall : ∀ r < 37, (Int64.ofNat r).toUInt64.toUInt32.toNat = r := by decide
  have hbits := hall r (by omega)
  unfold radixArgument
  split
  next =>
    have hzero : Value.undefined.toInteger.toInt = 0 := by decide
    omega
  next =>
    rw [hword, hbits, if_neg (by omega)]

/-- The base in which a written integer is read is its own, be the mark of hexadecimal numbers looked for
or not. -/
theorem chooseRadix_of_forall₂ {asked : Bool} (h : List.Forall₂ IsDigitOf ds cs)
    (hds : ∀ d ∈ ds, d < r) (hasked : r ≤ 16 ∨ asked = true) :
    chooseRadix r asked cs = (r, cs) := by
  unfold chooseRadix
  split
  next hmark =>
    have hr : r ≤ 16 := by
      rcases hmark with rfl | hnot
      · exact Nat.le_refl 16
      · rcases hasked with hr | hasked
        · exact hr
        · simp [hasked] at hnot
    have hlt : ∀ d ∈ ds, d < 16 := fun d hd => Nat.lt_of_lt_of_le (hds d hd) hr
    rw [takeHexMark_of_forall₂ h hlt]
  next => rfl

end Reading

/-- The calls that read the text of an integer read its digits, without the sign. -/
theorem parseInt_of_written {k : Int64} {r : Nat} (hr : 2 ≤ r ∧ r ≤ 36) {v : Value}
    (hv : WrittenInt r k.toInt v.text.toList) {args : List Value}
    (hargs : (∃ w : Value, w.toInteger.toInt = r ∧ args = [v, w]) ∨ r = 10 ∧ args = [v]) :
    parseInt none args = .ok (ofDigits r (decide (k.toInt < 0)) (baseDigits r k.toInt.natAbs)) := by
  obtain ⟨cs, htext, hcs⟩ := hv
  have hlt : ∀ d ∈ baseDigits r k.toInt.natAbs, d < r := baseDigits_lt (by omega)
  have hnil := baseDigits_ne_nil r k.toInt.natAbs
  have hsign := takeSign_of_forall₂ k.toInt hcs
  have hdigits : leadingDigits r cs = baseDigits r k.toInt.natAbs := leadingDigits_of_forall₂ hcs hlt
  have hread := readBase_of_ne_nil hr (hdigits ▸ hnil)
  rw [hdigits] at hread
  rcases hargs with ⟨w, hw, rfl⟩ | ⟨rfl, rfl⟩
  · have hradix := radixArgument_of_toInt hr hw
    have hasked : decide (2 ≤ [v, w].length) = true := rfl
    have hchoose : chooseRadix r true cs = (r, cs) := chooseRadix_of_forall₂ hcs hlt (.inr rfl)
    simp only [parseInt_eq, argument, List.getElem?_cons_zero, List.getElem?_cons_succ,
      Option.getD_some, htext, hsign, hradix, hasked, hchoose, hread]
  · have hradix : radixArgument .undefined = 10 := by decide
    have hasked : decide (2 ≤ [v].length) = false := rfl
    have hchoose : chooseRadix 10 false cs = (10, cs) :=
      chooseRadix_of_forall₂ hcs hlt (.inl (by omega))
    simp only [parseInt_eq, argument, List.getElem?_cons_zero, List.getElem?_cons_succ,
      List.getElem?_nil, Option.getD_some, Option.getD_none, htext, hsign, hradix, hasked, hchoose,
      hread]

/-- The text of an integer in a base is read back in that base, but for the least integer, which becomes
a floating-point number. The base ten need not be given. -/
theorem parseInt_reads_back (k : Int64) {r : Nat} (hr : 2 ≤ r ∧ r ≤ 36) {v : Value}
    (hv : WrittenInt r k.toInt v.text.toList) {args : List Value}
    (hargs : (∃ w : Value, w.toInteger.toInt = r ∧ args = [v, w]) ∨ r = 10 ∧ args = [v]) :
    (k ≠ Int64.minValue → parseInt none args = .ok (.integer k)) ∧
      (k = Int64.minValue → ∃ x, parseInt none args = .ok (.float x)) := by
  have hread := parseInt_of_written hr hv hargs
  constructor
  · intro hk
    rw [hread, ofDigits_natAbs r hk]
  · rintro rfl
    have hfloat := ofDigits_minValue r (decide (Int64.minValue.toInt < 0))
    exact ⟨_, by rw [hread, hfloat]⟩

theorem parseInt_reads_back_mixed_case :
    WrittenInt 36 (-9223372036854775807) "-1Y2p0iJ32e8E7".toList ∧
      parseInt none [.string "-1Y2p0iJ32e8E7", .integer 36] = .ok (.integer (-9223372036854775807)) ∧
      parseInt none [.integer 1234567890] = .ok (.integer 1234567890) := by
  have hmixed : WrittenInt 36 (-9223372036854775807 : Int64).toInt
      (Value.string "-1Y2p0iJ32e8E7").text.toList := by
    refine ⟨"1Y2p0iJ32e8E7".toList, by decide, ?_⟩
    decide
  have hdecimal : WrittenInt 10 (1234567890 : Int64).toInt
      (Value.integer 1234567890).text.toList := writtenInt_text 1234567890
  have hbase : (Value.integer 36).toInteger.toInt = (36 : Nat) :=
    Value.toInt_toInteger_ofNat (by decide)
  refine ⟨hmixed, ?_, ?_⟩
  · exact (parseInt_reads_back _ (by decide) hmixed (.inl ⟨.integer 36, hbase, rfl⟩)).1 (by decide)
  · exact (parseInt_reads_back _ (by decide) hdecimal (.inr ⟨rfl, rfl⟩)).1 (by decide)

/-- The least integer becomes the number below it that is reached by rounding after each digit. -/
theorem parseInt_least :
    WrittenInt 10 Int64.minValue.toInt "-9223372036854775808".toList ∧
      parseInt none [.string "-9223372036854775808"] =
        .ok (.float (.ofInt (-9223372036854777856))) ∧
      parseInt none [.string "-9223372036854775808"] ≠ .ok (.integer Int64.minValue) := by
  have hwritten : WrittenInt 10 Int64.minValue.toInt
      (Value.string "-9223372036854775808").text.toList := by
    have htext := writtenInt_text Int64.minValue
    have hdigits : (Value.integer Int64.minValue).text = "-9223372036854775808" := by decide
    rwa [hdigits] at htext
  have hround : roundDigits 10 (decide (Int64.minValue.toInt < 0))
      (baseDigits 10 Int64.minValue.toInt.natAbs) = .ofInt (-9223372036854777856) := by
    decide +kernel
  have hread := parseInt_of_written (by decide) hwritten (.inr ⟨rfl, rfl⟩)
  rw [ofDigits_minValue, hround] at hread
  refine ⟨hwritten, hread, ?_⟩
  intro hinteger
  rw [hread] at hinteger
  cases hinteger

end Function

end Verdict
