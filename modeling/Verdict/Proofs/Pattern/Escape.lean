import Verdict.Pattern.Escape
import Verdict.Proofs.Pattern.Closing

namespace Verdict

namespace Escape

variable {f : PatternFlags} {s s' : List Char}

theorem readHexDigits_follows (count n : Nat) (h : Closed s s') :
    Follows id (readHexDigits f count n s) (readHexDigits f count n s') := by
  induction count generalizing n s s' with
  | zero => exact .ok h
  | succ count ih =>
    cases s with
    | nil => exact .error
    | cons c s =>
      obtain ⟨t, rfl, ht⟩ := h.of_cons
      simp only [readHexDigits]
      split
      next => exact ih _ (ht.skip f)
      next => exact .error

-- The fuel comes from the length of the text, so that the longer text is read with more of it.
theorem readHexBraced_follows {fuel fuel' : Nat} (hfuel : fuel ≤ fuel') (n : Nat) (found : Bool)
    (h : Closed s s') :
    Follows id (readHexBraced f fuel n found s) (readHexBraced f fuel' n found s') := by
  induction fuel generalizing fuel' n found s s' with
  | zero => exact .error
  | succ fuel ih =>
    obtain ⟨fuel', rfl⟩ : ∃ k, fuel' = k + 1 := ⟨fuel' - 1, by omega⟩
    cases s with
    | nil => exact .error
    | cons c s =>
      obtain ⟨t, rfl, ht⟩ := h.of_cons
      simp only [readHexBraced]
      split
      next =>
        split
        next => exact .ok (ht.skip f)
        next => exact .error
      next =>
        split
        next => exact ih (by omega) _ _ (ht.skip f)
        next => exact .error

theorem readHex_follows (count : Nat) (h : Closed s s') :
    Follows id (readHex f count s) (readHex f count s') := by
  have hs := h.skip f
  have hhead := hs.head?_eq_iff (c := '\x7b') (by decide)
  unfold readHex
  dsimp only
  by_cases hbraced : (f.skip s).head? = some '\x7b'
  · rw [if_pos hbraced, if_pos (hhead.mpr hbraced)]
    refine (readHexBraced_follows hs.length_le 0 false (hs.tail.skip f)).bind ?_
    intro n rest rest' hrest
    simp only [id, hbraced, hhead.mpr hbraced]
    split
    next => exact .ok hrest
    next => exact .error
  · rw [if_neg hbraced, if_neg ((not_congr hhead).mpr hbraced)]
    refine (readHexDigits_follows count 0 hs).bind ?_
    intro n rest rest' hrest
    simp only [id, hbraced, (not_congr hhead).mpr hbraced]
    split
    next => exact .ok hrest
    next => exact .error

theorem readBraced_closed {fuel fuel' : Nat} (hfuel : fuel ≤ fuel') {name found rest : List Char}
    (h : Closed s s') (hread : readBraced f fuel name s = some (found, rest)) :
    ∃ rest', readBraced f fuel' name s' = some (found, rest') ∧ Closed rest rest' := by
  induction fuel generalizing fuel' name s s' with
  | zero => cases hread
  | succ fuel ih =>
    obtain ⟨fuel', rfl⟩ : ∃ k, fuel' = k + 1 := ⟨fuel' - 1, by omega⟩
    have hs := h.skip f
    unfold readBraced at hread ⊢
    cases hskip : f.skip s with
    | nil => simp [hskip] at hread
    | cons c t =>
      rw [hskip] at hs hread
      obtain ⟨t', hskip', ht⟩ := hs.of_cons
      rw [hskip']
      dsimp only at hread ⊢
      split at hread
      next hc =>
        cases hread
        exact ⟨t', if_pos hc, ht⟩
      next hc =>
        rw [if_neg hc]
        exact ih (by omega) ht hread

theorem namedClass_follows (negated : Bool) (name : List Char) (h : Closed s s') :
    let named (rest : List Char) : Except PatternError (Escape × List Char) :=
      if !f.unicode then .error .beyondASCII
      else match classOfName? name with
        | some (t, flip) => do
          let t ← f.negate (negated != flip) (f.fold t)
          .ok (set t, rest)
        | none => .error .unknownClass
    Follows id (named s) (named s') := by
  dsimp only
  split
  next => exact .error
  next =>
    split
    next => exact .bind_same fun _ => .ok h
    next => exact .error

theorem readClass_follows (negated : Bool) (h : Closed s s') :
    Follows id (readClass f negated s) (readClass f negated s') := by
  have hs := h.skip f
  unfold readClass
  cases hskip : f.skip s with
  | nil => exact .error
  | cons c t =>
    rw [hskip] at hs
    obtain ⟨t', hskip', ht⟩ := hs.of_cons
    rw [hskip']
    by_cases hbrace : c = '\x7b'
    · subst c
      cases hread : readBraced f (t.length + 1) [] t with
      | none =>
        simp only [hread]
        exact .error
      | some found =>
        obtain ⟨rest', hread', hrest⟩ :=
          readBraced_closed (Nat.succ_le_succ ht.length_le) ht hread
        simp only [hread, hread']
        exact namedClass_follows negated found.1 hrest
    · by_cases hslash : c = '\\'
      · subst c
        exact .error
      · simp only
        exact namedClass_follows negated [c] (ht.skip f)

theorem letterClass_follows (negated : Bool) (set ascii : CharSet) (h : Closed s s') :
    Follows id (letterClass f negated set ascii s) (letterClass f negated set ascii s') :=
  .bind_same fun _ => .ok h

theorem takeBoundaryName_closed {fuel fuel' : Nat} (hfuel : s.length ≤ fuel)
    (hfuel' : s'.length ≤ fuel') (name : List Char) (h : Closed s s') :
    (takeBoundaryName f fuel' name s').1 = (takeBoundaryName f fuel name s).1 ∧
      Closed (takeBoundaryName f fuel name s).2 (takeBoundaryName f fuel' name s').2 := by
  induction fuel generalizing fuel' name s s' with
  | zero =>
    obtain rfl : s = [] := List.length_eq_zero_iff.mp (by omega)
    rcases h.of_nil with rfl | rfl <;> cases fuel' <;> exact ⟨rfl, h⟩
  | succ fuel ih =>
    cases s with
    | nil => rcases h.of_nil with rfl | rfl <;> cases fuel' <;> exact ⟨rfl, h⟩
    | cons c s =>
      obtain ⟨t, rfl, ht⟩ := h.of_cons
      rw [List.length_cons] at hfuel hfuel'
      obtain ⟨fuel', rfl⟩ : ∃ k, fuel' = k + 1 := ⟨fuel' - 1, by omega⟩
      simp only [takeBoundaryName]
      split
      next =>
        have hs := f.length_skip_le s
        have ht' := f.length_skip_le t
        exact ih (by omega) (by omega) _ (ht.skip f)
      next => exact ⟨rfl, h⟩

theorem readBoundary_follows (h : Closed s s') :
    Follows id (readBoundary f s) (readBoundary f s') := by
  cases s with
  | nil => rcases h.of_nil with rfl | rfl <;> exact .ok h
  | cons c s =>
    obtain ⟨t, rfl, ht⟩ := h.of_cons
    by_cases hbrace : c = '\x7b'
    · subst c
      have hskipped := ht.skip f
      simp only [readBoundary]
      cases hskip : f.skip s with
      | nil => exact .error
      | cons d inner =>
        rw [hskip] at hskipped
        obtain ⟨inner', hskip', hinner⟩ := hskipped.of_cons
        rw [hskip']
        dsimp only
        split
        next => exact .ok h
        next =>
          obtain ⟨hname, hrest⟩ := takeBoundaryName_closed (f := f) (Nat.le_refl _)
            (Nat.le_refl _) [] (hskip' ▸ hskipped)
          rw [List.length_cons, List.length_cons] at hname hrest
          generalize takeBoundaryName f (inner.length + 1) [] (d :: inner) = found at hname hrest ⊢
          generalize takeBoundaryName f (inner'.length + 1) [] (d :: inner') = found' at hname hrest ⊢
          obtain ⟨name, rest⟩ := found
          obtain ⟨_, rest'⟩ := found'
          obtain rfl := hname
          cases rest with
          | nil => exact .error
          | cons e rest =>
            obtain ⟨t', rfl, ht'⟩ := hrest.of_cons
            by_cases hclose : e = '\x7d'
            · subst e
              simp only
              split
              next => exact .ok ht'
              next => exact .ok ht'
              next => exact .ok ht'
              next => exact .ok ht'
              next => exact .error
            · split
              next => simp_all
              next => exact .error
    · have hother : ∀ r, readBoundary f (c :: r) = .ok (look (.wordBoundary f.wordKind), c :: r) := by
        simp [readBoundary, hbrace]
      rw [hother, hother]
      exact .ok h

theorem read_follows (h : Closed s s') : Follows id (read f s) (read f s') := by
  cases s with
  | nil => exact .error
  | cons c s =>
    obtain ⟨t, rfl, ht⟩ := h.of_cons
    simp only [read]
    split
    next => exact .error
    next =>
      split
      case h_1 => exact readHex_follows 2 ht
      case h_2 => exact readHex_follows 4 ht
      case h_3 => exact readHex_follows 8 ht
      case h_4 => exact readClass_follows false ht
      case h_5 => exact readClass_follows true ht
      case h_6 => exact letterClass_follows false _ _ ht
      case h_7 => exact letterClass_follows true _ _ ht
      case h_8 => exact letterClass_follows false _ _ ht
      case h_9 => exact letterClass_follows true _ _ ht
      case h_10 => exact letterClass_follows false _ _ ht
      case h_11 => exact letterClass_follows true _ _ ht
      case h_20 => exact readBoundary_follows ht
      case h_24 =>
        split
        next => exact .ok ht
        next => exact .error
      all_goals exact .ok ht

end Escape

end Verdict
