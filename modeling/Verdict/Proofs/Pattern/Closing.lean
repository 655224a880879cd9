import Mathlib.Data.List.TakeDrop
import Verdict.Pattern.Flags
import Verdict.Proofs.Fold

namespace Verdict

/-- The text `s'` is `s` with a closing parenthesis after it, unless both have been skipped as part
of a comment. -/
def Closed (s s' : List Char) : Prop :=
  s' = s ++ [')'] ∨ s = [] ∧ s' = []

namespace Closed

variable {s s' : List Char} {c : Char}

theorem snoc (s : List Char) : Closed s (s ++ [')']) := .inl rfl

theorem nil : Closed [] [] := .inr ⟨rfl, rfl⟩

theorem of_cons (h : Closed (c :: s) s') : ∃ t, s' = c :: t ∧ Closed s t := by
  rcases h with rfl | ⟨h, _⟩
  · exact ⟨s ++ [')'], rfl, snoc s⟩
  · cases h

theorem of_nil (h : Closed [] s') : s' = [')'] ∨ s' = [] := by
  rcases h with rfl | ⟨_, rfl⟩
  · exact .inl rfl
  · exact .inr rfl

/-- Both texts begin with a character, or neither does. -/
theorem lead (hc : c ≠ ')') (h : Closed s s') :
    (∃ t t', s = c :: t ∧ s' = c :: t' ∧ Closed t t') ∨
      (∀ t, s ≠ c :: t) ∧ ∀ t, s' ≠ c :: t := by
  cases s with
  | nil => rcases h.of_nil with rfl | rfl <;> exact .inr (by simp [hc.symm])
  | cons d s =>
    obtain ⟨t, rfl, ht⟩ := h.of_cons
    by_cases hd : d = c
    · subst d
      exact .inl ⟨s, t, rfl, rfl, ht⟩
    · exact .inr (by simp [hd])

theorem head?_eq_iff (hc : c ≠ ')') (h : Closed s s') : s'.head? = some c ↔ s.head? = some c := by
  rcases h with rfl | ⟨rfl, rfl⟩
  · cases s with
    | nil => simp [hc.symm]
    | cons d s => rfl
  · rfl

theorem tail (h : Closed s s') : Closed s.tail s'.tail := by
  rcases h with rfl | ⟨rfl, rfl⟩
  · cases s with
    | nil => exact nil
    | cons d s => exact snoc s
  · exact nil

theorem dropWhile (p : Char → Bool) (hp : p ')' = false) (h : Closed s s') :
    Closed (s.dropWhile p) (s'.dropWhile p) := by
  rcases h with rfl | ⟨rfl, rfl⟩
  · induction s with
    | nil => simpa [hp] using snoc []
    | cons c s ih =>
      rw [List.cons_append, List.dropWhile_cons, List.dropWhile_cons]
      split
      next => exact ih
      next => exact snoc (c :: s)
  · exact nil

/-- A text is cut at the first character that a test fails for, if there is one; the parenthesis is
none of these. -/
theorem span (p : Char → Bool) (hp : p ')' = true) (h : Closed s s') :
    (s'.span p).1 = (s.span p).1 ∧ Closed (s.span p).2 (s'.span p).2 ∨
      (s.span p).2 = [] ∧ (s'.span p).2 = [] := by
  simp only [List.span_eq_takeWhile_dropWhile]
  rcases h with rfl | ⟨rfl, rfl⟩
  · induction s with
    | nil => exact .inr ⟨rfl, by simp [hp]⟩
    | cons c s ih =>
      simp only [List.cons_append, List.takeWhile_cons, List.dropWhile_cons]
      split
      next => exact ih.imp_left fun hs => ⟨congrArg (c :: ·) hs.1, hs.2⟩
      next => exact .inl ⟨rfl, snoc (c :: s)⟩
  · exact .inr ⟨rfl, rfl⟩

theorem length_le (h : Closed s s') : s.length ≤ s'.length := by
  rcases h with rfl | ⟨rfl, rfl⟩
  · simp
  · exact Nat.le_refl _

theorem skipVerbose (inComment : Bool) (s : List Char) :
    Closed (skipVerbose inComment s) (skipVerbose inComment (s ++ [')'])) := by
  induction s generalizing inComment with
  | nil =>
    cases inComment with
    | true => exact nil
    | false => exact snoc []
  | cons c s ih =>
    simp only [List.cons_append, Verdict.skipVerbose]
    split
    · exact ih _
    · split
      · exact ih _
      · split
        · exact ih _
        · exact snoc (c :: s)

theorem skip (f : PatternFlags) (h : Closed s s') : Closed (f.skip s) (f.skip s') := by
  unfold PatternFlags.skip
  split
  · rcases h with rfl | ⟨rfl, rfl⟩
    · exact skipVerbose false s
    · exact nil
  · exact h

end Closed

theorem length_skipVerbose_le (inComment : Bool) (s : List Char) :
    (skipVerbose inComment s).length ≤ s.length := by
  induction s generalizing inComment with
  | nil => exact Nat.le_refl _
  | cons c s ih =>
    have hrest := fun b => Nat.le_succ_of_le (ih b)
    simp only [skipVerbose]
    split
    next => exact hrest _
    next =>
      split
      next => exact hrest _
      next =>
        split
        next => exact hrest _
        next => exact Nat.le_refl _

theorem PatternFlags.length_skip_le (f : PatternFlags) (s : List Char) :
    (f.skip s).length ≤ s.length := by
  unfold PatternFlags.skip
  split
  next => exact length_skipVerbose_le false s
  next => exact Nat.le_refl _

/-- Where the first reading succeeds, so does the second. It gives what corresponds to what the
first gives, and leaves the closing parenthesis. -/
def Follows {α β : Type} (g : α → β) (x : Except PatternError (α × List Char))
    (x' : Except PatternError (β × List Char)) : Prop :=
  ∀ a rest, x = .ok (a, rest) → ∃ rest', x' = .ok (g a, rest') ∧ Closed rest rest'

namespace Follows

variable {α β γ δ : Type} {g : α → β} {s s' : List Char}

theorem error {e : PatternError} {x' : Except PatternError (β × List Char)} :
    Follows g (.error e) x' := nofun

theorem ok {a : α} (h : Closed s s') : Follows g (.ok (a, s)) (.ok (g a, s')) := by
  rintro _ _ ⟨⟩
  exact ⟨s', rfl, h⟩

theorem bind {g' : γ → δ} {x : Except PatternError (α × List Char)}
    {x' : Except PatternError (β × List Char)} {k : α × List Char → Except PatternError (γ × List Char)}
    {k' : β × List Char → Except PatternError (δ × List Char)} (hx : Follows g x x')
    (hk : ∀ a rest rest', Closed rest rest' → Follows g' (k (a, rest)) (k' (g a, rest'))) :
    Follows g' (x >>= k) (x' >>= k') := by
  intro b rest h
  obtain ⟨⟨a, middle⟩, ha, hb⟩ := bind_eq_ok_iff.mp h
  obtain ⟨middle', ha', hclosed⟩ := hx a middle ha
  obtain ⟨rest', hb', hrest⟩ := hk a middle middle' hclosed b rest hb
  exact ⟨rest', bind_eq_ok_iff.mpr ⟨_, ha', hb'⟩, hrest⟩

theorem bind_same {g : γ → δ} {x : Except PatternError α}
    {k : α → Except PatternError (γ × List Char)} {k' : α → Except PatternError (δ × List Char)}
    (hk : ∀ a, Follows g (k a) (k' a)) : Follows g (x >>= k) (x >>= k') := by
  cases x with
  | error e => exact error
  | ok a => exact hk a

end Follows

end Verdict
