import Verdict.Pattern.Bracket
import Verdict.Proofs.Pattern.Escape

namespace Verdict

namespace ClassItem

variable {f : PatternFlags} {s s' : List Char}

/-- A name that ends with a colon and a bracket is found with or without the parenthesis. -/
theorem namedBody_closed (negated : Bool) (h : Closed s s') :
    let named (body : List Char) : Option (Bool × CharSet × List Char) :=
      match body.span (· != ':') with
      | (name, ':' :: ']' :: rest) =>
        (CharClass.bracketNames.lookup (String.ofList name)).map (negated, ·, rest)
      | _ => none
    (named s = none ∧ named s' = none) ∨ ∃ no set rest rest', named s = some (no, set, rest) ∧
      named s' = some (no, set, rest') ∧ Closed rest rest' := by
  have hspan := h.span (· != ':') (by decide)
  dsimp only
  generalize s.span (· != ':') = found at hspan ⊢
  generalize s'.span (· != ':') = found' at hspan ⊢
  obtain ⟨name, rest⟩ := found
  obtain ⟨name', rest'⟩ := found'
  dsimp only at hspan
  rcases hspan with ⟨rfl, hrest⟩ | ⟨rfl, rfl⟩
  · cases rest with
    | nil => rcases hrest.of_nil with rfl | rfl <;> exact .inl ⟨rfl, rfl⟩
    | cons a rest =>
      obtain ⟨t, rfl, ht⟩ := hrest.of_cons
      cases rest with
      | nil => rcases ht.of_nil with rfl | rfl <;> exact .inl (by simp)
      | cons b rest =>
        obtain ⟨u, rfl, hu⟩ := ht.of_cons
        by_cases hend : a = ':' ∧ b = ']'
        · obtain ⟨rfl, rfl⟩ := hend
          cases hset : CharClass.bracketNames.lookup (String.ofList name') with
          | none => exact .inl (by simp [hset])
          | some set => exact .inr ⟨negated, set, rest, u, by simp [hset], by simp [hset], hu⟩
        · have hother : ∀ r, (match (name', a :: b :: r) with
              | (name, ':' :: ']' :: rest) =>
                (CharClass.bracketNames.lookup (String.ofList name)).map (negated, ·, rest)
              | _ => none) = none := by
            intro r
            split
            next heq => simp_all
            next => rfl
          exact .inl ⟨hother rest, hother u⟩
  · exact .inl ⟨rfl, rfl⟩

theorem readNamed?_closed (h : Closed s s') :
    (readNamed? s = none ∧ readNamed? s' = none) ∨
      ∃ no set rest rest', readNamed? s = some (no, set, rest) ∧
        readNamed? s' = some (no, set, rest') ∧ Closed rest rest' := by
  unfold readNamed?
  rcases h.lead (c := ':') (by decide) with ⟨t, t', rfl, rfl, ht⟩ | ⟨hs, hs'⟩
  · rcases ht.lead (c := '^') (by decide) with ⟨u, u', rfl, rfl, hu⟩ | ⟨ht', ht''⟩
    · exact namedBody_closed true hu
    · simp only
      exact namedBody_closed false ht
  · simp

theorem takeHyphens_closed {fuel fuel' : Nat} (hfuel : s.length ≤ fuel)
    (hfuel' : s'.length ≤ fuel') (items : List ClassItem) (h : Closed s s') :
    (takeHyphens f fuel' items s').1 = (takeHyphens f fuel items s).1 ∧
      Closed (takeHyphens f fuel items s).2 (takeHyphens f fuel' items s').2 := by
  induction fuel generalizing fuel' items s s' with
  | zero =>
    obtain rfl : s = [] := List.length_eq_zero_iff.mp (by omega)
    rcases h.of_nil with rfl | rfl <;> cases fuel' <;> exact ⟨rfl, h⟩
  | succ fuel ih =>
    cases s with
    | nil => rcases h.of_nil with rfl | rfl <;> cases fuel' <;> exact ⟨rfl, h⟩
    | cons c s =>
      obtain ⟨t, rfl, ht⟩ := h.of_cons
      rw [List.length_cons] at hfuel hfuel'
      obtain ⟨fuel', rfl⟩ : ∃ k, fuel' = k + 1 := ⟨fuel' - 1, by omega⟩
      by_cases hc : c = '-'
      · subst c
        have hs := f.length_skip_le s
        have ht' := f.length_skip_le t
        exact ih (by omega) (by omega) _ (ht.skip f)
      · have hother : ∀ k r, takeHyphens f (k + 1) items (c :: r) = (items, c :: r) := by
          simp [takeHyphens, hc]
        rw [hother, hother]
        exact ⟨rfl, h⟩

/-- The hyphens after an opening bracket, or else the bracket that stands for itself. -/
theorem openingItems_closed (negated : Bool) (h : Closed s s') :
    let opening (s : List Char) : Bool × List ClassItem × List Char :=
      match takeHyphens f s.length [] s with
      | ([], ']' :: rest) => (negated, [⟨.char ']', 0⟩], f.skip rest)
      | (items, s) => (negated, items, s)
    (opening s').1 = (opening s).1 ∧ (opening s').2.1 = (opening s).2.1 ∧
      Closed (opening s).2.2 (opening s').2.2 := by
  have hitems := takeHyphens_closed (f := f) (Nat.le_refl _) (Nat.le_refl _) [] h
  dsimp only
  generalize takeHyphens f s.length [] s = found at hitems ⊢
  generalize takeHyphens f s'.length [] s' = found' at hitems ⊢
  obtain ⟨items, rest⟩ := found
  obtain ⟨items', rest'⟩ := found'
  dsimp only at hitems
  obtain ⟨rfl, hrest⟩ := hitems
  rcases hrest.lead (c := ']') (by decide) with ⟨t, t', rfl, rfl, ht⟩ | ⟨hr, hr'⟩
  · cases items' with
    | nil => exact ⟨rfl, rfl, ht.skip f⟩
    | cons item items => exact ⟨rfl, rfl, hrest⟩
  · cases items' with
    | nil =>
      have hother : ∀ r : List Char, (∀ t, r ≠ ']' :: t) →
          (match (([], r) : List ClassItem × List Char) with
            | ([], ']' :: rest) => (negated, [⟨.char ']', 0⟩], f.skip rest)
            | (items, s) => (negated, items, s)) = (negated, [], r) := by
        intro r hr
        split
        next heq => exact absurd (congrArg Prod.snd heq) (hr _)
        next heq => simp_all
      rw [hother rest hr, hother rest' hr']
      exact ⟨rfl, rfl, hrest⟩
    | cons item items => exact ⟨rfl, rfl, hrest⟩

theorem readOpening_closed (h : Closed s s') :
    (readOpening f s').1 = (readOpening f s).1 ∧ (readOpening f s').2.1 = (readOpening f s).2.1 ∧
      Closed (readOpening f s).2.2 (readOpening f s').2.2 := by
  unfold readOpening
  rcases (h.skip f).lead (c := '^') (by decide) with ⟨t, t', hs, hs', ht⟩ | ⟨hs, hs'⟩
  · rw [hs, hs']
    exact openingItems_closed true (ht.skip f)
  · simp only
    exact openingItems_closed false (h.skip f)

theorem readPrimitive_follows (h : Closed s s') :
    Follows id (readPrimitive f s) (readPrimitive f s') := by
  cases s with
  | nil => exact .error
  | cons c s =>
    obtain ⟨t, rfl, ht⟩ := h.of_cons
    by_cases hslash : c = '\\'
    · subst c
      exact Escape.read_follows ht
    · simp only [readPrimitive]
      exact .ok ht

theorem afterHyphen_eq_iff {c : Char} (hc : c ≠ ')') (h : Closed s s') :
    afterHyphen f s' = some c ↔ afterHyphen f s = some c := by
  unfold afterHyphen
  split
  next => exact h.head?_eq_iff hc
  next =>
    have hskip := h.dropWhile isBlank (by decide)
    generalize s.dropWhile isBlank = t at hskip ⊢
    generalize s'.dropWhile isBlank = t' at hskip ⊢
    rcases hskip.lead (c := '#') (by decide) with ⟨u, u', rfl, rfl, hu⟩ | ⟨ht, ht'⟩
    · exact (hu.dropWhile isBlank (by decide)).head?_eq_iff hc
    · simp only
      exact hskip.head?_eq_iff hc

theorem readRange_follows (h : Closed s s') :
    Follows id (readRange f s) (readRange f s') := by
  unfold readRange
  refine (readPrimitive_follows h).bind ?_
  intro first rest rest' hrest
  have hskipped := hrest.skip f
  dsimp only [id]
  generalize f.skip rest = t at hskipped ⊢
  generalize f.skip rest' = t' at hskipped ⊢
  rcases hskipped.lead (c := '-') (by decide) with ⟨u, u', rfl, rfl, hu⟩ | ⟨ht, ht'⟩
  · have hnext : afterHyphen f u' = some ']' ∨ afterHyphen f u' = some '-' ↔
        afterHyphen f u = some ']' ∨ afterHyphen f u = some '-' :=
      or_congr (afterHyphen_eq_iff (by decide) hu) (afterHyphen_eq_iff (by decide) hu)
    simp only [hnext]
    split
    next => exact .bind_same fun _ => .ok hskipped
    next =>
      refine (readPrimitive_follows (hu.skip f)).bind ?_
      intro last after after' hafter
      refine .bind_same fun low => .bind_same fun high => ?_
      dsimp only [id]
      split
      next => exact .ok hafter
      next => exact .error
  · cases t with
    | nil => exact .error
    | cons d t =>
      obtain ⟨v, rfl, hv⟩ := hskipped.of_cons
      simp only
      exact .bind_same fun _ => .ok hskipped

/-- What neither opens nor closes a class, nor is an operator, begins a range. -/
theorem readParts_eq_range (fuel : Nat) (negated : Bool) (pending : Option (ClassOp × ClassItem))
    (items : List ClassItem) {c : Char} {t : List Char} (hs : f.skip s = c :: t)
    (hopen : c ≠ '[') (hclose : c ≠ ']')
    (hop : c = '&' ∨ c = '-' ∨ c = '~' → ∀ u, t ≠ c :: u) :
    readParts f (fuel + 1) negated pending items s =
      readRange f (c :: t) >>= fun found =>
        readParts f fuel negated pending (found.1 :: items) found.2 := by
  rw [readParts, hs]
  split
  next heq => cases heq
  next heq => exact absurd (List.cons.inj heq).1 hopen
  next heq => exact absurd (List.cons.inj heq).1 hclose
  next heq =>
    obtain ⟨rfl, ht⟩ := List.cons.inj heq
    exact absurd ht (hop (by simp) _)
  next heq =>
    obtain ⟨rfl, ht⟩ := List.cons.inj heq
    exact absurd ht (hop (by simp) _)
  next heq =>
    obtain ⟨rfl, ht⟩ := List.cons.inj heq
    exact absurd ht (hop (by simp) _)
  next => rfl

theorem readParts_follows {fuel fuel' : Nat} (hfuel : fuel ≤ fuel') (negated : Bool)
    (pending : Option (ClassOp × ClassItem)) (items : List ClassItem) (h : Closed s s') :
    Follows id (readParts f fuel negated pending items s)
      (readParts f fuel' negated pending items s') := by
  induction fuel generalizing fuel' negated pending items s s' with
  | zero => exact .error
  | succ fuel ih =>
    obtain ⟨fuel', rfl⟩ : ∃ k, fuel' = k + 1 := ⟨fuel' - 1, by omega⟩
    have hle : fuel ≤ fuel' := by omega
    have hskipped := h.skip f
    cases hs : f.skip s with
    | nil =>
      rw [readParts, hs]
      exact .error
    | cons c t =>
      rw [hs] at hskipped
      obtain ⟨t', hs', ht⟩ := hskipped.of_cons
      by_cases hopen : c = '['
      · subst c
        rcases readNamed?_closed ht with ⟨hn, hn'⟩ | ⟨no, set, rest, rest', hn, hn', hrest⟩
        · obtain ⟨hno, hfirst, hrest⟩ := readOpening_closed (f := f) ht
          simp only [readParts, hs, hs', hn, hn', hno, hfirst]
          exact (ih hle _ _ _ hrest).bind fun item _ _ hafter => ih hle _ _ _ hafter
        · simp only [readParts, hs, hs', hn, hn']
          exact .bind_same fun _ => ih hle _ _ _ hrest
      by_cases hclose : c = ']'
      · subst c
        rw [readParts, readParts, hs, hs']
        exact .bind_same fun _ => .ok ht
      -- An operator is a sign written twice. The parenthesis is no such sign, so it makes none.
      by_cases hop : (c = '&' ∨ c = '-' ∨ c = '~') ∧ ∃ u, t = c :: u
      · obtain ⟨hop, u, rfl⟩ := hop
        obtain ⟨u', rfl, hu⟩ := ht.of_cons
        rw [readParts, readParts, hs, hs']
        rcases hop with rfl | rfl | rfl <;> exact ih hle _ _ _ hu
      · have hrange : Follows id (readRange f (c :: t)) (readRange f (c :: t')) :=
          readRange_follows (hs' ▸ hskipped)
        rw [readParts_eq_range fuel negated pending items hs hopen hclose
            fun hc u hu => hop ⟨hc, u, hu⟩,
          readParts_eq_range fuel' negated pending items hs' hopen hclose fun hc u hu => ?_]
        · exact hrange.bind fun item _ _ hafter => ih hle _ _ _ hafter
        · rcases ht.lead (c := c) (by rcases hc with rfl | rfl | rfl <;> decide) with
            ⟨v, _, hv, _⟩ | ⟨_, hnot⟩
          · exact hop ⟨hc, v, hv⟩
          · exact hnot u hu

theorem read_follows (h : Closed s s') : Follows id (read f s) (read f s') := by
  obtain ⟨hno, hitems, hrest⟩ := readOpening_closed (f := f) h
  simp only [read, hno, hitems]
  exact readParts_follows (Nat.succ_le_succ hrest.length_le) _ _ _ hrest

end ClassItem

end Verdict
