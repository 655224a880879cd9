import Mathlib.Data.List.Pairwise
import Verdict.Text.Letter

namespace Verdict

section Rank

variable {edges : Array Nat} {l : List Nat} {n i lo hi : Nat}

theorem getElem_le_iff_of_pairwise (h : l.Pairwise (· ≤ ·)) (hi : i < l.length) :
    l[i] ≤ n ↔ i < (l.takeWhile (· ≤ n)).length := by
  induction l generalizing i with
  | nil => cases hi
  | cons a l ih =>
    obtain ⟨hfirst, hrest⟩ := List.pairwise_cons.mp h
    by_cases ha : a ≤ n
    · rw [List.takeWhile_cons_of_pos (by simpa using ha), List.length_cons]
      cases i with
      | zero => simp [ha]
      | succ i => simpa using ih hrest (Nat.lt_of_succ_lt_succ hi)
    · rw [List.takeWhile_cons_of_neg (by simpa using ha)]
      cases i with
      | zero => simpa using ha
      | succ i =>
        have hle := hfirst _ (List.getElem_mem (Nat.lt_of_succ_lt_succ hi))
        simp only [List.getElem_cons_succ, List.length_nil, Nat.not_lt_zero, iff_false]
        omega

/-- Bisection keeps the number of entries at most `n` between its two bounds. -/
theorem rank_go_eq (h : edges.toList.Pairwise (· ≤ ·))
    (hlo : lo ≤ (edges.toList.takeWhile (· ≤ n)).length)
    (hhi : (edges.toList.takeWhile (· ≤ n)).length ≤ hi) (hsize : hi ≤ edges.size) :
    rank.go edges n lo hi = (edges.toList.takeWhile (· ≤ n)).length := by
  fun_induction rank.go edges n lo hi with
  | case1 lo hi hlt mid hle ih =>
    have hmid : mid < edges.toList.length := by
      rw [Array.length_toList]
      omega
    have hentry := getElem_le_iff_of_pairwise (n := n) h hmid
    have hmid' : mid < edges.size := hmid
    rw [Array.getElem_toList] at hentry
    rw [getElem?_pos edges mid hmid', Option.getD_some] at hle
    exact ih (hentry.mp hle) hhi hsize
  | case2 lo hi hlt mid hle ih =>
    have hmid : mid < edges.toList.length := by
      rw [Array.length_toList]
      omega
    have hentry := getElem_le_iff_of_pairwise (n := n) h hmid
    have hmid' : mid < edges.size := hmid
    rw [Array.getElem_toList] at hentry
    rw [getElem?_pos edges mid hmid', Option.getD_some, hentry] at hle
    exact ih hlo (Nat.not_lt.mp hle) (by omega)
  | case3 lo hi hge => omega

theorem rank_eq (h : edges.toList.Pairwise (· ≤ ·)) (n : Nat) :
    rank edges n = (edges.toList.takeWhile (· ≤ n)).length := by
  refine rank_go_eq h (Nat.zero_le _) ?_ (Nat.le_refl _)
  rw [← Array.length_toList]
  exact (List.takeWhile_prefix _).length_le

end Rank

section Runs

variable {last n : Nat} {lengths : List Nat}

theorem scanl_eq_cons (last : Nat) (lengths : List Nat) :
    lengths.scanl (· + ·) last = last :: (lengths.scanl (· + ·) last).tail := by
  cases lengths <;> simp

theorem pairwise_scanl (last : Nat) (lengths : List Nat) :
    (lengths.scanl (· + ·) last).Pairwise (· ≤ ·) ∧ ∀ n ∈ lengths.scanl (· + ·) last, last ≤ n := by
  induction lengths generalizing last with
  | nil => simp
  | cons length lengths ih =>
    obtain ⟨hpairwise, hle⟩ := ih (last + length)
    have hlater : ∀ n ∈ lengths.scanl (· + ·) (last + length), last ≤ n := by
      intro n hn
      have := hle n hn
      omega
    rw [List.scanl_cons]
    exact ⟨List.pairwise_cons.mpr ⟨hlater, hpairwise⟩,
      List.forall_mem_cons.mpr ⟨Nat.le_refl last, hlater⟩⟩

end Runs

/-- Each line of a table as the list of its characters. -/
theorem cons_eq_map_ofList {l : List Char} {ls : List (List Char)} {lines : List String}
    (h : lines = ls.map String.ofList) : String.ofList l :: lines = (l :: ls).map String.ofList := by
  rw [h, List.map_cons]

section Numbers

/-- The numbers of a line, of which one has been begun. -/
def lineNumbers : Option Nat → List Char → List Nat
  | current, [] => current.toList
  | current, c :: cs =>
    match digit? 36 c with
    | some d => lineNumbers (some (current.getD 0 * 36 + d)) cs
    | none => current.toList ++ lineNumbers none cs

theorem readCodedLine_ofList (numbers : Array Nat) (cs : List Char) :
    (readCodedLine numbers (String.ofList cs)).toList = numbers.toList ++ lineNumbers none cs := by
  let step : Option Nat × Array Nat → Char → Option Nat × Array Nat := fun r c =>
    match digit? 36 c with
    | some d => (some (r.1.getD 0 * 36 + d), r.2)
    | none => (none, (r.1.map r.2.push).getD r.2)
  have hfold : ∀ (cs : List Char) (r : Option Nat × Array Nat),
      (((cs.foldl step r).1.map (cs.foldl step r).2.push).getD (cs.foldl step r).2).toList =
        r.2.toList ++ lineNumbers r.1 cs := by
    intro cs
    induction cs with
    | nil => rintro ⟨_ | current, numbers⟩ <;> simp [lineNumbers]
    | cons c cs ih =>
      rintro ⟨current, numbers⟩
      rw [List.foldl_cons, ih, lineNumbers]
      cases hdigit : digit? 36 c with
      | some d => simp [step, hdigit]
      | none => cases current <;> simp [step, hdigit]
  have hline := hfold (String.ofList cs).toList (none, numbers)
  rw [← String.foldl_eq_foldl_toList, String.toList_ofList] at hline
  exact hline

theorem codedNumbers_map (ls : List (List Char)) :
    (codedNumbers (ls.map String.ofList)).toList = ls.flatMap (lineNumbers none) := by
  have hfold : ∀ numbers : Array Nat, ((ls.map String.ofList).foldl readCodedLine numbers).toList =
      numbers.toList ++ ls.flatMap (lineNumbers none) := by
    induction ls with
    | nil => simp
    | cons l ls ih =>
      intro numbers
      rw [List.map_cons, List.foldl_cons, ih, readCodedLine_ofList, List.flatMap_cons,
        List.append_assoc]
  simpa [codedNumbers] using hfold #[]

/-- The places where membership changes are the sums of the coded steps. -/
theorem RunSet.edges_ofSteps (ls : List (List Char)) : (ofSteps (ls.map String.ofList)).edges.toList =
    ((ls.flatMap (lineNumbers none)).scanl (· + ·) 0).tail := by
  unfold ofSteps
  dsimp only
  have hfold : ∀ (steps : List Nat) (last : Nat) (edges : Array Nat),
      (steps.foldl (fun (r : Nat × Array Nat) step => (r.1 + step, r.2.push (r.1 + step)))
        (last, edges)).2.toList = edges.toList ++ (steps.scanl (· + ·) last).tail := by
    intro steps
    induction steps with
    | nil => simp
    | cons step steps ih =>
      intro last edges
      rw [List.foldl_cons, ih, List.scanl_cons, List.tail_cons, scanl_eq_cons (last + step)]
      simp
  rw [← codedNumbers_map, ← Array.foldl_toList]
  exact hfold _ 0 #[]

/-- Whether a place lies in a run, where the steps lead from each change of membership to the next. -/
def stepsHold (steps : List Nat) (n : Nat) : Bool :=
  ((steps.scanl (· + ·) 0).tail.takeWhile (· ≤ n)).length % 2 == 1

theorem RunSet.contains_ofSteps (ls : List (List Char)) (c : Char) :
    (ofSteps (ls.map String.ofList)).contains c =
      stepsHold (ls.flatMap (lineNumbers none)) c.toNat := by
  have hsorted := (pairwise_scanl 0 (ls.flatMap (lineNumbers none))).1.sublist
    (List.tail_sublist _)
  rw [← edges_ofSteps] at hsorted
  rw [contains, rank_eq hsorted, edges_ofSteps, stepsHold]

end Numbers

namespace Category

/-- The lengths and categories of the runs of a table, of which one has been begun. -/
def runs : Nat → Option Char → List Char → List (Nat × Category)
  | _, _, [] => []
  | length, some k, c :: cs =>
    (length, (ofCode? (String.ofList [k, c])).getD unassigned) :: runs 0 none cs
  | length, none, c :: cs =>
    if c.isUpper then runs length (some c) cs
    else runs (length * 36 + (digit? 36 c).getD 0) none cs

theorem foldl_push (cs : List Char) (r : Reading) :
    (cs.foldl Reading.push r).starts.toList = r.starts.toList ++
        (((runs r.length r.capital cs).map Prod.fst).scanl (· + ·) r.last).dropLast ∧
      (cs.foldl Reading.push r).kinds.toList =
        r.kinds.toList ++ (runs r.length r.capital cs).map Prod.snd := by
  induction cs generalizing r with
  | nil => simp [runs]
  | cons c cs ih =>
    obtain ⟨hstarts, hkinds⟩ := ih (r.push c)
    rw [List.foldl_cons, hstarts, hkinds]
    obtain ⟨last, length, capital, starts, kinds⟩ := r
    cases capital with
    | some k =>
      have hne : ((runs 0 none cs).map Prod.fst).scanl (· + ·) (last + length) ≠ [] := by
        rw [scanl_eq_cons]
        exact List.cons_ne_nil _ _
      simp [Reading.push, runs, List.dropLast_cons_of_ne_nil hne]
    | none =>
      rw [Reading.push, runs]
      dsimp only
      split <;> simp

theorem table_eq {ls : List (List Char)} (h : table.coded = ls.map String.ofList) :
    table = ls.flatten.foldl Reading.push ⟨0, 0, none, #[], #[]⟩ := by
  rw [table, h, List.foldl_flatten, List.foldl_map]
  simp only [String.foldl_eq_foldl_toList, String.toList_ofList]

/-- The category of the last run that begins at or before a place, which bisection finds. -/
def atPlace (rs : List (Nat × Category)) (n : Nat) : Category :=
  ((rs.map Prod.snd)[
    (((rs.map Prod.fst).scanl (· + ·) 0).dropLast.takeWhile (· ≤ n)).length - 1]?).getD unassigned

theorem of_eq {ls : List (List Char)} (h : table.coded = ls.map String.ofList) (c : Char) :
    of c = atPlace (runs 0 none ls.flatten) c.toNat := by
  obtain ⟨hstarts, hkinds⟩ := foldl_push ls.flatten ⟨0, 0, none, #[], #[]⟩
  rw [← table_eq h] at hstarts hkinds
  change table.starts.toList = [] ++ _ at hstarts
  change table.kinds.toList = [] ++ _ at hkinds
  rw [List.nil_append] at hstarts hkinds
  have hsorted := (pairwise_scanl 0 ((runs 0 none ls.flatten).map Prod.fst)).1.sublist
    (List.dropLast_sublist _)
  rw [← hstarts] at hsorted
  rw [of, rank_eq hsorted, atPlace, ← hkinds, ← hstarts, Array.getElem?_toList]

end Category

section Blanks

/-- The code points of the blanks beyond ASCII. -/
def wideBlanks : List Nat :=
  [0x85, 0xa0, 0x1680, 0x2000, 0x2001, 0x2002, 0x2003, 0x2004, 0x2005, 0x2006, 0x2007, 0x2008,
   0x2009, 0x200a, 0x2028, 0x2029, 0x202f, 0x205f, 0x3000]

theorem contains_ofSteps_eq_false {lines : List String} {ls : List (List Char)} {codes : List Nat}
    (h : lines = ls.map String.ofList)
    (hsteps : ∀ n ∈ codes, stepsHold (ls.flatMap (lineNumbers none)) (Char.ofNat n).toNat = false) :
    ∀ n ∈ codes, (RunSet.ofSteps lines).contains (Char.ofNat n) = false := by
  intro n hn
  rw [h, RunSet.contains_ofSteps]
  exact hsteps n hn

theorem category_mem_of_runs {ls : List (List Char)} {codes : List Nat} {ks : List Category}
    (h : Category.table.coded = ls.map String.ofList)
    (hruns : ∀ n ∈ codes,
      Category.atPlace (Category.runs 0 none ls.flatten) (Char.ofNat n).toNat ∈ ks) :
    ∀ n ∈ codes, Category.of (Char.ofNat n) ∈ ks := by
  intro n hn
  rw [Category.of_eq h]
  exact hruns n hn

-- The characters of the lines are found by unification, since decoding a text takes a proof too long.

theorem category_blank : ∀ n ∈ wideBlanks, Category.of (Char.ofNat n) ∈
    [.control, .spaceSeparator, .lineSeparator, .paragraphSeparator] := by
  apply category_mem_of_runs
  · dsimp only [Category.table.coded]
    repeat apply cons_eq_map_ofList
    exact List.map_nil.symm
  · decide +kernel

theorem otherLowercase_blank : ∀ n ∈ wideBlanks,
    otherLowercase.contains (Char.ofNat n) = false := by
  apply contains_ofSteps_eq_false
  · repeat apply cons_eq_map_ofList
    exact List.map_nil.symm
  · decide +kernel

theorem otherUppercase_blank : ∀ n ∈ wideBlanks,
    otherUppercase.contains (Char.ofNat n) = false := by
  apply contains_ofSteps_eq_false
  · repeat apply cons_eq_map_ofList
    exact List.map_nil.symm
  · decide +kernel

theorem otherAlphabetic_blank : ∀ n ∈ wideBlanks,
    otherAlphabetic.contains (Char.ofNat n) = false := by
  apply contains_ofSteps_eq_false
  · repeat apply cons_eq_map_ofList
    exact List.map_nil.symm
  · decide +kernel

theorem isWord_wideBlank {n : Nat} (h : n ∈ wideBlanks) : isWord (Char.ofNat n) = false := by
  have hwide : ∀ n ∈ wideBlanks, ¬ (Char.ofNat n).toNat < 128 := by decide
  have hothers : ∀ n ∈ wideBlanks, (isDecimalDigit (Char.ofNat n) ||
      Char.ofNat n == '\u200c' || Char.ofNat n == '\u200d') = false := by decide
  have hnumber := hothers n h
  have hcategory := category_blank n h
  have hlower := otherLowercase_blank n h
  have hupper := otherUppercase_blank n h
  have halphabetic := otherAlphabetic_blank n h
  simp only [Bool.or_eq_false_iff] at hnumber
  simp only [List.mem_cons, List.not_mem_nil, or_false] at hcategory
  rw [isWord, if_neg (hwide n h), isAlphabetic, if_neg (hwide n h)]
  rcases hcategory with hk | hk | hk | hk <;> simp [hk, hlower, hupper, halphabetic, hnumber]

/-- No blank is a word character. -/
theorem isWord_of_isBlank {c : Char} (h : isBlank c = true) : isWord c = false := by
  have hcode : c.toNat ∈ [9, 10, 11, 12, 13, 32] ∨ c.toNat ∈ wideBlanks := by
    simp only [isBlank, Bool.or_eq_true, Bool.and_eq_true, decide_eq_true_eq, beq_iff_eq] at h
    simp only [wideBlanks, List.mem_cons, List.not_mem_nil, or_false]
    omega
  rw [← Char.ofNat_toNat c]
  rcases hcode with hcode | hcode
  · have hascii : ∀ n ∈ [9, 10, 11, 12, 13, 32], isWord (Char.ofNat n) = false := by decide
    exact hascii _ hcode
  · exact isWord_wideBlank hcode

end Blanks

end Verdict
