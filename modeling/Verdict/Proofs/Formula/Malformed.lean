import Verdict.Proofs.Formula.Collapse

namespace Verdict

namespace Algebra

/-- The parts of an algebra as a formula has it. -/
inductive Part where
  | operand
  | chain

/-- The grammar of the algebras that formulas have. -/
inductive Part.Derives : Part → List Char → Prop
  | digit (holds : Bool) : operand.Derives [Formula.digit holds]
  | group {s : List Char} : chain.Derives s → operand.Derives ('(' :: (s ++ [')']))
  | single {s : List Char} : operand.Derives s → chain.Derives s
  | join {s t : List Char} (op : Connective) : chain.Derives s → operand.Derives t →
    chain.Derives (s ++ op.symbol :: t)

/-- Symbols and groups of such in any order. `lead` says what else may stand first in a group. -/
inductive Sequence (lead : Char → Prop) : List Char → Prop
  | nil : Sequence lead []
  | symbol {c : Char} {s : List Char} : IsSymbol c → Sequence lead s → Sequence lead (c :: s)
  | group {s t : List Char} : s ≠ [] → Sequence lead s → Sequence lead t →
    Sequence lead ('(' :: (s ++ ')' :: t))
  | led {c : Char} {s t : List Char} : lead c → Sequence lead s → Sequence lead t →
    Sequence lead ('(' :: (c :: s ++ ')' :: t))

/-- Symbols and groups, but for the first character of the text, and that of each group. -/
def IsLoose (s : List Char) : Prop :=
  Sequence (¬ IsParen ·) s ∨ ∃ c t, s = c :: t ∧ Sequence (¬ IsParen ·) t

theorem Part.Derives.odd_length {part : Part} {s : List Char} (h : part.Derives s) :
    s.length % 2 = 1 := by
  induction h with
  | digit holds => rfl
  | group _ ih =>
    simp only [List.length_cons, List.length_append, List.length_nil]
    omega
  | single _ ih => exact ih
  | join op _ _ ihs iht =>
    simp only [List.length_cons, List.length_append]
    omega

section Loose

variable {s t g : List Char}

theorem Sequence.of_symbols {lead : Char → Prop} (h : ∀ c ∈ s, IsSymbol c) : Sequence lead s := by
  induction s with
  | nil => exact .nil
  | cons c s ih =>
    obtain ⟨hc, hs⟩ := List.forall_mem_cons.mp h
    exact .symbol hc (ih hs)

/-- A group that has a verdict stands where its digit stood. -/
theorem Sequence.of_flat {holds : Bool} (hg : ∀ c ∈ g, ¬ IsParen c)
    (hflat : flatVerdict? g = .ok (some holds)) (ht : Sequence (¬ IsParen ·) t) :
    Sequence (¬ IsParen ·) ('(' :: (g ++ ')' :: t)) := by
  rcases flatVerdict?_eq_ok hflat with ⟨_, hv⟩ | ⟨c, rest, _, rfl, hrest, _⟩
  · cases hv
  · exact .led (hg c List.mem_cons_self) (.of_symbols hrest) ht

theorem Sequence.of_collapses (ht : Sequence (¬ IsParen ·) t) (h : Collapses s t) :
    Sequence (¬ IsParen ·) s := by
  induction ht generalizing s with
  | nil =>
    cases h
    exact .nil
  | symbol hc _ ih =>
    rcases h.of_cons with ⟨s', rfl, h'⟩ | ⟨g, s', holds, rfl, hg, hflat, rfl, h'⟩
    · exact .symbol hc (ih h')
    · exact .of_flat hg hflat (ih h')
  | group hne _ _ ihs iht =>
    obtain ⟨u, rfl, hu⟩ := h.of_cons_paren (.inl rfl)
    obtain ⟨s', v, rfl, hs', hv⟩ := hu.of_append
    obtain ⟨t', rfl, ht'⟩ := hv.of_cons_paren (.inr rfl)
    have hne' : s' ≠ [] := by
      rintro rfl
      cases hs'
      exact hne rfl
    exact .group hne' (ihs hs') (iht ht')
  | led hc _ _ ihs iht =>
    obtain ⟨u, rfl, hu⟩ := h.of_cons_paren (.inl rfl)
    obtain ⟨s', v, rfl, hs', hv⟩ := hu.of_append
    obtain ⟨t', rfl, ht'⟩ := hv.of_cons_paren (.inr rfl)
    rcases hs'.of_cons with ⟨s'', rfl, h'⟩ | ⟨g, s'', holds, rfl, hg, hflat, rfl, h'⟩
    · exact .led hc (ihs h') (iht ht')
    · exact .group (List.cons_ne_nil _ _) (.of_flat hg hflat (ihs h')) (iht ht')

theorem IsLoose.of_collapses (ht : IsLoose t) (h : Collapses s t) : IsLoose s := by
  rcases ht with ht | ⟨c, rest, rfl, hrest⟩
  · exact .inl (ht.of_collapses h)
  · rcases h.of_cons with ⟨s', rfl, h'⟩ | ⟨g, s', holds, rfl, hg, hflat, _, h'⟩
    · exact .inr ⟨c, s', rfl, hrest.of_collapses h'⟩
    · exact .inl (.of_flat hg hflat (hrest.of_collapses h'))

theorem isLoose_of_flat {v : Option Bool} (h : flatVerdict? s = .ok v) : IsLoose s := by
  rcases flatVerdict?_eq_ok h with ⟨rfl, _⟩ | ⟨c, rest, _, rfl, hrest, _⟩
  · exact .inl .nil
  · exact .inr ⟨c, rest, rfl, .of_symbols hrest⟩

theorem isLoose_of_verdict {holds : Bool} (h : verdict s = .ok holds) : IsLoose s := by
  obtain ⟨t, v, hall, hflat, _⟩ := verdict_eq_ok h
  clear h
  induction hall using Relation.ReflTransGen.head_induction_on with
  | refl => exact isLoose_of_flat hflat
  | head hpass _ ih => exact ih.of_collapses hpass

end Loose

section Sequence

variable {s t u : List Char}

theorem flatVerdict?_of_symbols (h : ∀ c ∈ s, IsSymbol c) : ∃ v, flatVerdict? s = .ok v := by
  cases hflat : flatVerdict? s with
  | ok v => exact ⟨v, rfl⟩
  | error e =>
    obtain ⟨c, hc, hbad, _⟩ := flatVerdict?_eq_error hflat
    exact absurd (h c hc) hbad

theorem run_symbols (h : ∀ c ∈ s, IsSymbol c) (p : Pass) :
    s.foldlM Pass.step p = .ok (p.append s) :=
  Pass.run_plain (fun c hc => (h c hc).not_isParen) p

/-- A pass over the first text leaves the second one, and has replaced a group. -/
structure PassesTo (s t : List Char) : Prop where
  sequence : Sequence (fun _ => False) t
  ne_nil : t ≠ []
  shorter : t.length < s.length
  run : ∀ p, s.foldlM Pass.step p = .ok ⟨t.reverse ++ p.flush, none, true⟩

/-- What follows a group, whether it has groups or not. -/
theorem exists_rest (ht : Sequence (fun _ => False) t)
    (h : (∀ c ∈ t, IsSymbol c) ∨ ∃ t', PassesTo t t') :
    ∃ u, Sequence (fun _ => False) u ∧ u.length ≤ t.length ∧ ∀ done,
      t.foldlM Pass.step ⟨done, none, true⟩ = .ok ⟨u.reverse ++ done, none, true⟩ := by
  rcases h with hsymbols | ⟨t', ht'⟩
  · exact ⟨t, ht, Nat.le_refl _, fun done => run_symbols hsymbols _⟩
  · exact ⟨t', ht'.sequence, Nat.le_of_lt ht'.shorter, fun done => ht'.run _⟩

theorem run_group (hne : s ≠ []) (hs : ∀ c ∈ s, IsSymbol c) : ∃ holds, ∀ p,
    ('(' :: (s ++ ')' :: t)).foldlM Pass.step p =
      t.foldlM Pass.step ⟨Formula.digit holds :: p.flush, none, true⟩ := by
  obtain ⟨v, hv⟩ := flatVerdict?_of_symbols hs
  rcases flatVerdict?_eq_ok hv with ⟨hnil, _⟩ | ⟨_, _, holds, _, _, rfl⟩
  · exact absurd hnil hne
  · exact ⟨holds, Pass.run_group (fun c hc => (hs c hc).not_isParen) hv⟩

theorem PassesTo.run_group (h : PassesTo s u) (p : Pass) :
    ('(' :: (s ++ ')' :: t)).foldlM Pass.step p =
      t.foldlM Pass.step ⟨')' :: (u.reverse ++ '(' :: p.flush), none, true⟩ := by
  have hopen : p.step '(' = .ok ⟨p.flush, some [], p.changed⟩ := rfl
  rw [foldlM_cons_ok hopen, foldlM_append_ok (h.run _)]
  rfl

theorem Sequence.passes (h : Sequence (fun _ => False) s) :
    (∀ c ∈ s, IsSymbol c) ∨ ∃ t, PassesTo s t := by
  induction h with
  | nil => exact .inl nofun
  | @symbol c s hc _ ih =>
    rcases ih with hs | ⟨t, ht⟩
    · exact .inl (List.forall_mem_cons.mpr ⟨hc, hs⟩)
    · obtain ⟨ho, hclose⟩ := not_or.mp hc.not_isParen
      refine .inr ⟨c :: t, .symbol hc ht.sequence, List.cons_ne_nil _ _,
        Nat.succ_lt_succ ht.shorter, fun p => ?_⟩
      rw [foldlM_cons_ok (Pass.step_plain ho hclose), ht.run, Pass.flush_append]
      simp
  | @group s t hne _ ht ihs iht =>
    obtain ⟨u, hu, hlength, hrun⟩ := exists_rest ht iht
    rcases ihs with hs | ⟨s', hs'⟩
    · obtain ⟨holds, hgroup⟩ := run_group (t := t) hne hs
      refine .inr ⟨Formula.digit holds :: u, .symbol (isSymbol_digit holds) hu,
        List.cons_ne_nil _ _, ?_, fun p => ?_⟩
      · simp only [List.length_cons, List.length_append]
        omega
      · rw [hgroup, hrun]
        simp
    · refine .inr ⟨'(' :: (s' ++ ')' :: u), .group hs'.ne_nil hs'.sequence hu,
        List.cons_ne_nil _ _, ?_, fun p => ?_⟩
      · have hshorter := hs'.shorter
        simp only [List.length_cons, List.length_append]
        omega
      · rw [hs'.run_group, hrun]
        simp
  | led hc => exact hc.elim

theorem reduceGroups_sequence (h : Sequence (fun _ => False) s) :
    ((∀ c ∈ s, IsSymbol c) ∧ reduceGroups s = .ok (s, false)) ∨
      ∃ t, Sequence (fun _ => False) t ∧ t.length < s.length ∧ reduceGroups s = .ok (t, true) := by
  unfold reduceGroups
  rcases h.passes with hs | ⟨t, ht⟩
  · refine .inl ⟨hs, ?_⟩
    rw [run_symbols hs]
    simp [Except.map, Pass.append, Pass.start, Pass.flush]
  · refine .inr ⟨t, ht.sequence, ht.shorter, ?_⟩
    rw [ht.run]
    simp [Except.map, Pass.start, Pass.flush]

/-- As many passes as there are characters leave no group. -/
theorem reduceAll_sequence {fuel : Nat} (h : Sequence (fun _ => False) s)
    (hfuel : s.length ≤ fuel) : ∃ t, reduceAll fuel s = .ok t ∧ ∀ c ∈ t, IsSymbol c := by
  induction fuel generalizing s with
  | zero =>
    have hnil : s = [] := List.eq_nil_of_length_eq_zero (by omega)
    subst hnil
    exact ⟨[], rfl, nofun⟩
  | succ fuel ih =>
    rcases reduceGroups_sequence h with ⟨hs, hpass⟩ | ⟨t, ht, hlt, hpass⟩
    · refine ⟨s, ?_, hs⟩
      rw [reduceAll, hpass]
      rfl
    · obtain ⟨u, hu, hsymbols⟩ := ih ht (by omega)
      refine ⟨u, ?_, hsymbols⟩
      rw [reduceAll, hpass]
      exact hu

theorem Sequence.exists_verdict (h : Sequence (fun _ => False) s) :
    ∃ holds, verdict s = .ok holds := by
  obtain ⟨t, hall, hsymbols⟩ := reduceAll_sequence h (Nat.le_refl _)
  obtain ⟨v, hv⟩ := flatVerdict?_of_symbols hsymbols
  refine ⟨v.getD false, ?_⟩
  rw [verdict, hall]
  change (do return (← flatVerdict? t).getD false) = _
  rw [hv]
  rfl

end Sequence

end Algebra

open Verdict.Algebra

/-- A text that has a verdict is made of symbols and groups, but for the character that stands first
in it or in a group; one that has none holds the character that the error names; and all texts of
symbols and groups have a verdict. -/
theorem algebra_rejects_malformed :
    (∀ s holds, Algebra.verdict s = .ok holds → IsLoose s) ∧
    (∀ s e, Algebra.verdict s = .error e → ∃ c ∈ s, ¬ IsSymbol c ∧ e = .badAlgebra c) ∧
    ∀ s, Sequence (fun _ => False) s → ∃ holds, Algebra.verdict s = .ok holds :=
  ⟨fun _ _ h => isLoose_of_verdict h, fun _ _ h => verdict_eq_error h,
    fun _ h => h.exists_verdict⟩

theorem algebra_rejects_malformed_nested :
    Algebra.verdict "0|(1|(0&1))1".toList = .ok true ∧ IsLoose "0|(1|(0&1))1".toList ∧
      Algebra.verdict "1&(0|x)".toList = .error (.badAlgebra 'x') ∧
      (∃ c ∈ "1&(0|x)".toList, ¬ IsSymbol c ∧ RuleError.badAlgebra 'x' = .badAlgebra c) ∧
      Sequence (fun _ => False) "11&&(0)".toList ∧
      ∃ holds, Algebra.verdict "11&&(0)".toList = .ok holds := by
  have hok : Algebra.verdict "0|(1|(0&1))1".toList = .ok true := rfl
  have herror : Algebra.verdict "1&(0|x)".toList = .error (.badAlgebra 'x') := rfl
  have hgroup : Sequence (fun _ => False) ('(' :: (['0'] ++ ')' :: [])) :=
    .group (List.cons_ne_nil _ _) (.of_symbols (by simp [IsSymbol])) .nil
  have hsequence : Sequence (fun _ => False) "11&&(0)".toList :=
    .symbol (by decide) (.symbol (by decide) (.symbol (by decide) (.symbol (by decide) hgroup)))
  exact ⟨hok, algebra_rejects_malformed.1 _ _ hok, herror,
    algebra_rejects_malformed.2.1 _ _ herror, hsequence,
    algebra_rejects_malformed.2.2 _ hsequence⟩

/-- Connectives may be repeated: no algebra of a formula is so. -/
theorem algebra_accepts_repetition :
    Algebra.verdict "1&&1".toList = .ok true ∧ "1&&1".toList ≠ [] ∧
      ¬ Part.chain.Derives "1&&1".toList := by
  refine ⟨rfl, by decide, fun h => ?_⟩
  exact absurd h.odd_length (by decide)

/-- The character that stands first is not looked at: it may be neither a digit nor a connective, or
a parenthesis without its partner. -/
theorem algebra_accepts_stray :
    (Algebra.verdict "x".toList = .ok false ∧ ¬ IsSymbol 'x' ∧ ¬ IsParen 'x') ∧
      Algebra.verdict "(1".toList = .ok true ∧
        "(1".toList.count '(' ≠ "(1".toList.count ')' := by
  exact ⟨⟨rfl, by decide, by decide⟩, rfl, by decide⟩

end Verdict
