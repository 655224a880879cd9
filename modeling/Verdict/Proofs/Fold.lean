import Mathlib.Control.Monad.Basic

namespace Verdict

variable {α β ε : Type}

theorem bind_eq_ok_iff {x : Except ε α} {k : α → Except ε β} {b : β} :
    x >>= k = .ok b ↔ ∃ a, x = .ok a ∧ k a = .ok b := by
  cases x with
  | error e => simp [bind, Except.bind]
  | ok a => simp [bind, Except.bind]

theorem map_eq_ok_iff {x : Except ε α} {g : α → β} {b : β} :
    x.map g = .ok b ↔ ∃ a, x = .ok a ∧ g a = b := by
  cases x with
  | error e => simp [Except.map]
  | ok a => simp [Except.map]

theorem foldlM_cons_ok {f : β → α → Except ε β} {b c : β} {x : α} {xs : List α}
    (h : f b x = .ok c) : (x :: xs).foldlM f b = xs.foldlM f c := by
  rw [List.foldlM_cons, h]
  rfl

theorem foldlM_append_ok {f : β → α → Except ε β} {b c : β} {xs ys : List α}
    (h : xs.foldlM f b = .ok c) : (xs ++ ys).foldlM f b = ys.foldlM f c := by
  rw [List.foldlM_append, h]
  rfl

/-- What holds of a state and of what has been read, and goes on to do so with each element, holds
after all of them. -/
theorem foldlM_reads {f : β → α → Except ε β} {P : β → List α → Prop} {xs r : List α}
    (reads : ∀ b r c, ∀ x ∈ xs, P b r → f b x = .ok c → P c (r ++ [x])) {b c : β} (hb : P b r)
    (h : xs.foldlM f b = .ok c) : P c (r ++ xs) := by
  induction xs generalizing b r with
  | nil =>
    cases h
    rwa [List.append_nil]
  | cons x xs ih =>
    cases hx : f b x with
    | error e =>
      rw [List.foldlM_cons, hx] at h
      cases h
    | ok d =>
      rw [foldlM_cons_ok hx] at h
      have hd := reads b r d x List.mem_cons_self hb hx
      have hrest := ih (fun b r c y hy => reads b r c y (List.mem_cons_of_mem x hy)) hd h
      rwa [List.append_assoc] at hrest

theorem foldlM_keeps {f : β → α → Except ε β} {P : β → Prop}
    (keeps : ∀ b x c, P b → f b x = .ok c → P c) {xs : List α} {b c : β} (hb : P b)
    (h : xs.foldlM f b = .ok c) : P c :=
  foldlM_reads (P := fun b _ => P b) (r := []) (fun b _ c x _ => keeps b x c) hb h

/-- A fold fails at one of the elements, and has read the ones before it. -/
theorem foldlM_eq_error {f : β → α → Except ε β} {xs : List α} {b : β} {e : ε}
    (h : xs.foldlM f b = .error e) :
    ∃ before x after c, xs = before ++ x :: after ∧ before.foldlM f b = .ok c ∧
      f c x = .error e := by
  induction xs generalizing b with
  | nil => cases h
  | cons x xs ih =>
    cases hx : f b x with
    | error e' =>
      rw [List.foldlM_cons, hx] at h
      cases h
      exact ⟨[], x, xs, b, rfl, rfl, hx⟩
    | ok c =>
      rw [foldlM_cons_ok hx] at h
      obtain ⟨before, y, after, d, rfl, hbefore, hfail⟩ := ih h
      exact ⟨x :: before, y, after, d, rfl, (foldlM_cons_ok hx).trans hbefore, hfail⟩

end Verdict
