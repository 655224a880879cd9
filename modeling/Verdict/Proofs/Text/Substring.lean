import Mathlib.Data.List.Infix
import Verdict.Text.Substring

namespace Verdict

section Index

variable {needle s : List Char} {skipped start k : Nat}

theorem indexFrom_eq_some (h : indexFrom needle skipped s = some k) :
    ∃ n ≤ s.length, k = skipped + n ∧ needle <+: s.drop n ∧ ∀ j < n, ¬ needle <+: s.drop j := by
  induction s generalizing skipped with
  | nil =>
    obtain ⟨hneedle, hk⟩ : needle = [] ∧ skipped = k := by simpa [indexFrom] using h
    exact ⟨0, Nat.le_refl 0, hk.symm, by simp [hneedle], nofun⟩
  | cons c s ih =>
    rw [indexFrom] at h
    split at h
    next hprefix =>
      cases h
      exact ⟨0, Nat.zero_le _, rfl, List.isPrefixOf_iff_prefix.mp hprefix, nofun⟩
    next hprefix =>
      obtain ⟨n, hn, rfl, hneedle, hfirst⟩ := ih h
      refine ⟨n + 1, Nat.succ_le_succ hn, by omega, hneedle, fun j hj => ?_⟩
      cases j with
      | zero => exact mt List.isPrefixOf_iff_prefix.mpr hprefix
      | succ j => exact hfirst j (Nat.lt_of_succ_lt_succ hj)

theorem indexFrom_eq_none (h : indexFrom needle skipped s = none) :
    ∀ j ≤ s.length, ¬ needle <+: s.drop j := by
  induction s generalizing skipped with
  | nil =>
    have hneedle : needle ≠ [] := by simpa [indexFrom] using h
    simpa using hneedle
  | cons c s ih =>
    rw [indexFrom] at h
    split at h
    next => cases h
    next hprefix =>
      intro j hj
      cases j with
      | zero => exact mt List.isPrefixOf_iff_prefix.mpr hprefix
      | succ j => exact ih h j (Nat.le_of_succ_le_succ hj)

/-- What is found is the first occurrence from the start on. -/
theorem indexOfFrom_eq_some (hstart : start ≤ s.length) (h : indexOfFrom needle s start = some k) :
    start ≤ k ∧ k ≤ s.length ∧ needle <+: s.drop k ∧
      ∀ j, start ≤ j → j < k → ¬ needle <+: s.drop j := by
  obtain ⟨n, hn, rfl, hneedle, hfirst⟩ := indexFrom_eq_some h
  rw [List.length_drop] at hn
  rw [List.drop_drop] at hneedle
  refine ⟨by omega, by omega, hneedle, fun j hj hlt => ?_⟩
  have hbefore := hfirst (j - start) (by omega)
  rwa [List.drop_drop, Nat.add_sub_cancel' hj] at hbefore

theorem indexOfFrom_eq_none (h : indexOfFrom needle s start = none) :
    ∀ j, start ≤ j → j ≤ s.length → ¬ needle <+: s.drop j := by
  intro j hj hlength
  have hnone := indexFrom_eq_none h (j - start) (by rw [List.length_drop]; omega)
  rwa [List.drop_drop, Nat.add_sub_cancel' hj] at hnone

end Index

section Pieces

variable {mark before x y s : List Char} {c : Char} {xs : List (List Char)} {fuel : Nat}

theorem append_of_cutAfter (h : cutAfter mark before s = some (x, y)) :
    x ++ mark ++ y = before.reverse ++ s := by
  induction s generalizing before with
  | nil =>
    obtain ⟨rfl, rfl, rfl⟩ : mark = [] ∧ before.reverse = x ∧ [] = y := by
      simpa [cutAfter] using h
    simp
  | cons c s ih =>
    rw [cutAfter] at h
    split at h
    next hprefix =>
      cases h
      rw [List.append_assoc,
        List.prefix_iff_eq_append.mp (List.isPrefixOf_iff_prefix.mp hprefix)]
    next => simpa using ih h

theorem append_of_cut (h : cut? mark s = some (x, y)) : x ++ mark ++ y = s :=
  append_of_cutAfter h

theorem piecesUpTo_ne_nil : piecesUpTo mark fuel s ≠ [] := by
  unfold piecesUpTo
  split
  next => simp
  next => split <;> simp

/-- A text is put together again from its pieces. -/
theorem intercalate_piecesUpTo : mark.intercalate (piecesUpTo mark fuel s) = s := by
  induction fuel generalizing s with
  | zero => exact List.intercalate_singleton
  | succ fuel ih =>
    rw [piecesUpTo]
    split
    next => exact List.intercalate_singleton
    next hcut => rw [List.intercalate_cons_of_ne_nil piecesUpTo_ne_nil, ih, append_of_cut hcut]

theorem intercalate_pieces : mark.intercalate (pieces mark s) = s :=
  intercalate_piecesUpTo

theorem intercalate_characters : [].intercalate (s.map fun c => [c]) = s := by
  induction s with
  | nil => rfl
  | cons c s ih =>
    cases s with
    | nil => rfl
    | cons d s =>
      rw [List.map_cons, List.intercalate_cons_of_ne_nil (by simp), ih]
      rfl

theorem cutAfter_append (hx : c ∉ x) :
    cutAfter [c] before (x ++ c :: y) = some (before.reverse ++ x, y) := by
  induction x generalizing before with
  | nil => simp [cutAfter]
  | cons d x ih =>
    rw [List.mem_cons, not_or] at hx
    rw [List.cons_append, cutAfter, if_neg (by simpa using hx.1), ih hx.2]
    simp

theorem cutAfter_eq_none (hs : c ∉ s) : cutAfter [c] before s = none := by
  induction s generalizing before with
  | nil => rfl
  | cons d s ih =>
    rw [List.mem_cons, not_or] at hs
    rw [cutAfter, if_neg (by simpa using hs.1), ih hs.2]

/-- Texts without a character are the pieces of the text that it joins them to. -/
theorem piecesUpTo_intercalate (hne : xs ≠ []) (hxs : ∀ x ∈ xs, c ∉ x)
    (hfuel : xs.length ≤ fuel + 1) : piecesUpTo [c] fuel ([c].intercalate xs) = xs := by
  induction xs generalizing fuel with
  | nil => exact absurd rfl hne
  | cons x xs ih =>
    obtain ⟨hx, hrest⟩ := List.forall_mem_cons.mp hxs
    cases xs with
    | nil =>
      rw [List.intercalate_singleton]
      cases fuel with
      | zero => rfl
      | succ fuel => rw [piecesUpTo, cut?, cutAfter_eq_none hx]
    | cons x' xs =>
      obtain ⟨fuel, rfl⟩ : ∃ n, fuel = n + 1 := ⟨fuel - 1, by simp at hfuel; omega⟩
      rw [List.intercalate_cons_cons, List.append_assoc, List.singleton_append, piecesUpTo, cut?,
        cutAfter_append hx]
      exact congrArg (x :: ·) (ih (List.cons_ne_nil _ _) hrest (Nat.le_of_succ_le_succ hfuel))

theorem length_le_intercalate : xs.length ≤ ([c].intercalate xs).length + 1 := by
  induction xs with
  | nil => exact Nat.zero_le _
  | cons x xs ih =>
    cases xs with
    | nil => simp
    | cons x' xs =>
      rw [List.intercalate_cons_cons]
      simp only [List.length_cons, List.length_append, List.length_nil] at ih ⊢
      omega

theorem pieces_intercalate (hne : xs ≠ []) (hxs : ∀ x ∈ xs, c ∉ x) :
    pieces [c] ([c].intercalate xs) = xs :=
  piecesUpTo_intercalate hne hxs length_le_intercalate

end Pieces

end Verdict
