import Mathlib.Data.List.Induction
import Mathlib.Data.List.Sort
import Mathlib.Data.List.TakeWhile

namespace Verdict

variable {α : Type} {le : α → α → Bool} {a x : α} {xs ys : List α}

/-- Puts `x` after the elements at the beginning of a list that may stand before it. -/
def insertAfter (le : α → α → Bool) (x : α) (xs : List α) : List α :=
  xs.takeWhile (le · x) ++ x :: xs.dropWhile (le · x)

theorem mem_insertAfter : a ∈ insertAfter le x xs ↔ a = x ∨ a ∈ xs := by
  have hxs : a ∈ xs ↔ a ∈ xs.takeWhile (le · x) ∨ a ∈ xs.dropWhile (le · x) := by
    rw [← List.mem_append, List.takeWhile_append_dropWhile]
  rw [insertAfter, List.mem_append, List.mem_cons, hxs]
  exact or_left_comm

theorem insertAfter_append_left (h : ∀ b ∈ xs, le b x = true) :
    insertAfter le x (xs ++ ys) = xs ++ insertAfter le x ys := by
  rw [insertAfter, List.takeWhile_append_of_pos h, List.dropWhile_append_of_pos h, insertAfter,
    List.append_assoc]

theorem insertAfter_append_right (h : ∀ c ∈ ys, le c x = false) :
    insertAfter le x (xs ++ ys) = insertAfter le x xs ++ ys := by
  induction xs with
  | nil =>
    cases ys with
    | nil => rfl
    | cons c ys => simp [insertAfter, h c List.mem_cons_self]
  | cons b xs ih =>
    cases hb : le b x with
    | true => simpa [insertAfter, hb] using ih
    | false => simp [insertAfter, hb]

theorem of_mem_dropWhile (trans : ∀ a b c, le a b = true → le b c = true → le a c = true)
    (h : xs.Pairwise (le · ·)) (ha : a ∈ xs.dropWhile (le · x)) : le a x = false := by
  induction xs with
  | nil => simp at ha
  | cons b xs ih =>
    obtain ⟨hb, hxs⟩ := List.pairwise_cons.mp h
    rw [List.dropWhile_cons] at ha
    cases hbx : le b x with
    | true =>
      rw [if_pos hbx] at ha
      exact ih hxs ha
    | false =>
      rw [if_neg (by simp [hbx])] at ha
      rcases List.mem_cons.mp ha with rfl | ha
      · exact hbx
      · by_contra hax
        have := trans b a x (hb a ha) (by simpa using hax)
        simp [hbx] at this

/-- A list is parted in only one way into elements with a property and elements without. -/
theorem parted_unique {p : α → Bool} {us vs : List α} (h : xs ++ ys = us ++ vs)
    (hxs : ∀ b ∈ xs, p b = true) (hys : ∀ c ∈ ys, p c = false)
    (hus : ∀ b ∈ us, p b = true) (hvs : ∀ c ∈ vs, p c = false) : xs = us ∧ ys = vs := by
  have hfilter := congrArg (List.filter p) h
  simp only [List.filter_append, List.filter_eq_self.mpr hxs, List.filter_eq_self.mpr hus,
    List.filter_eq_nil_iff.mpr (fun c hc => Bool.not_eq_true _ ▸ hys c hc),
    List.filter_eq_nil_iff.mpr (fun c hc => Bool.not_eq_true _ ▸ hvs c hc),
    List.append_nil] at hfilter
  subst us
  exact ⟨rfl, List.append_cancel_left h⟩

theorem mergeSort_concat (trans : ∀ a b c, le a b = true → le b c = true → le a c = true)
    (total : ∀ a b, (le a b || le b a) = true) (xs : List α) (x : α) :
    (xs ++ [x]).mergeSort le = insertAfter le x (xs.mergeSort le) := by
  induction xs with
  | nil => simp [insertAfter]
  | cons a xs ih =>
    have hflip : ∀ b c, le b c = false → le c b = true := by
      intro b c h
      simpa [h] using total b c
    -- Without `a`, the sorted list falls into what stands before `a` and what stands after it, and
    -- in no other way.
    obtain ⟨us, vs, hs, hrest, hus⟩ := List.mergeSort_cons trans total a xs
    obtain ⟨us', vs', hs', hrest', hus'⟩ := List.mergeSort_cons trans total a (xs ++ [x])
    have hafter := (List.pairwise_append.mp (hs ▸ List.pairwise_mergeSort trans total (a :: xs))).2.1
    have hafter' :=
      (List.pairwise_append.mp (hs' ▸ List.pairwise_mergeSort trans total (a :: (xs ++ [x])))).2.1
    have hvs := (List.pairwise_cons.mp hafter).1
    have hvs' := (List.pairwise_cons.mp hafter').1
    have hsplit : us' ++ vs' = insertAfter le x (us ++ vs) := by rw [← hrest', ← hrest, ih]
    rw [List.cons_append, hs', hs]
    cases hax : le a x with
    | true =>
      have hbefore : ∀ b ∈ us, le b x = true := by
        intro b hb
        exact trans b a x (hflip a b (by simpa using hus b hb)) hax
      rw [insertAfter_append_left hbefore] at hsplit
      obtain ⟨rfl, rfl⟩ := parted_unique (p := fun b => !le a b) hsplit hus'
        (fun c hc => by simpa using hvs' c hc) hus (fun c hc => by
          rcases mem_insertAfter.mp hc with rfl | hc
          · simpa using hax
          · simpa using hvs c hc)
      rw [insertAfter_append_left hbefore]
      simp [insertAfter, hax]
    | false =>
      have hbehind : ∀ c ∈ vs, le c x = false := by
        intro c hc
        by_contra h
        have := trans a c x (hvs c hc) (by simpa using h)
        simp [hax] at this
      rw [insertAfter_append_right hbehind] at hsplit
      obtain ⟨rfl, rfl⟩ := parted_unique (p := fun b => !le a b) hsplit hus'
        (fun c hc => by simpa using hvs' c hc) (fun b hb => by
          rcases mem_insertAfter.mp hb with rfl | hb
          · simpa using hax
          · exact hus b hb)
        (fun c hc => by simpa using hvs c hc)
      exact (insertAfter_append_right fun c hc => by
        rcases List.mem_cons.mp hc with rfl | hc
        · exact hax
        · exact hbehind c hc).symm

end Verdict
