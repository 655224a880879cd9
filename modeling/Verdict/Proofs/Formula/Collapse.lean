import Mathlib.Logic.Relation
import Verdict.Proofs.Formula.Reduction

namespace Verdict.Algebra

/-- A digit or a connective. -/
def IsSymbol (c : Char) : Prop := c = '0' ∨ c = '1' ∨ c = '&' ∨ c = '|'

instance (c : Char) : Decidable (IsSymbol c) := inferInstanceAs (Decidable (_ ∨ _))

def IsParen (c : Char) : Prop := c = '(' ∨ c = ')'

instance (c : Char) : Decidable (IsParen c) := inferInstanceAs (Decidable (_ ∨ _))

theorem isSymbol_digit (holds : Bool) : IsSymbol (Formula.digit holds) := by
  cases holds <;> decide

theorem IsSymbol.not_isParen {c : Char} (h : IsSymbol c) : ¬ IsParen c := by
  rcases h with rfl | rfl | rfl | rfl <;> decide

section Reading

variable {r : Reading} {c : Char} {s : List Char}

theorem step_of_isSymbol (r : Reading) (h : IsSymbol c) : ∃ r', r.step c = .ok r' := by
  rcases h with rfl | rfl | rfl | rfl <;> exact ⟨_, rfl⟩

theorem step_of_not_isSymbol (r : Reading) (h : ¬ IsSymbol c) :
    r.step c = .error (.badAlgebra c) := by
  unfold Reading.step
  split
  all_goals first | rfl | exact absurd (by decide) h

/-- A text is read to its end, or up to the first character that is no symbol. -/
theorem read_cases (r : Reading) (s : List Char) :
    ((∀ c ∈ s, IsSymbol c) ∧ ∃ r', s.foldlM Reading.step r = .ok r') ∨
      ∃ c ∈ s, ¬ IsSymbol c ∧ s.foldlM Reading.step r = .error (.badAlgebra c) := by
  induction s generalizing r with
  | nil => exact .inl ⟨nofun, r, rfl⟩
  | cons c s ih =>
    by_cases hc : IsSymbol c
    · obtain ⟨r', hr'⟩ := step_of_isSymbol r hc
      rw [foldlM_cons_ok hr']
      rcases ih r' with ⟨hs, hok⟩ | ⟨d, hd, hbad, herror⟩
      · exact .inl ⟨List.forall_mem_cons.mpr ⟨hc, hs⟩, hok⟩
      · exact .inr ⟨d, List.mem_cons_of_mem c hd, hbad, herror⟩
    · refine .inr ⟨c, List.mem_cons_self, hc, ?_⟩
      rw [List.foldlM_cons, step_of_not_isSymbol r hc]
      rfl

/-- What follows the first character of a text without parentheses decides whether it has a
verdict. -/
theorem flatVerdict?_cons_cases (c : Char) (s : List Char) :
    ((∀ d ∈ s, IsSymbol d) ∧ ∃ holds, flatVerdict? (c :: s) = .ok (some holds)) ∨
      ∃ d ∈ s, ¬ IsSymbol d ∧ flatVerdict? (c :: s) = .error (.badAlgebra d) := by
  rcases read_cases ⟨c == '1', false⟩ s with ⟨hs, r, hr⟩ | ⟨d, hd, hbad, herror⟩
  · refine .inl ⟨hs, r.holds, ?_⟩
    rw [flatVerdict?, hr]
    rfl
  · refine .inr ⟨d, hd, hbad, ?_⟩
    rw [flatVerdict?, herror]
    rfl

theorem flatVerdict?_eq_ok {s : List Char} {v : Option Bool} (h : flatVerdict? s = .ok v) :
    s = [] ∧ v = none ∨
      ∃ c rest holds, s = c :: rest ∧ (∀ d ∈ rest, IsSymbol d) ∧ v = some holds := by
  cases s with
  | nil => exact .inl ⟨rfl, (Except.ok.inj h).symm⟩
  | cons c rest =>
    rcases flatVerdict?_cons_cases c rest with ⟨hrest, holds, hok⟩ | ⟨d, _, _, herror⟩
    · exact .inr ⟨c, rest, holds, rfl, hrest, Except.ok.inj (h.symm.trans hok)⟩
    · cases h.symm.trans herror

theorem flatVerdict?_eq_error {s : List Char} {e : RuleError} (h : flatVerdict? s = .error e) :
    ∃ c ∈ s, ¬ IsSymbol c ∧ e = .badAlgebra c := by
  cases s with
  | nil => cases h
  | cons c rest =>
    rcases flatVerdict?_cons_cases c rest with ⟨_, holds, hok⟩ | ⟨d, hd, hbad, herror⟩
    · cases h.symm.trans hok
    · exact ⟨d, List.mem_cons_of_mem c hd, hbad, Except.error.inj (h.symm.trans herror)⟩

end Reading

/-- The second text is the first one with some groups that hold no parenthesis replaced by their
verdicts. -/
inductive Collapses : List Char → List Char → Prop
  | nil : Collapses [] []
  | keep (c : Char) {s t : List Char} : Collapses s t → Collapses (c :: s) (c :: t)
  | group {g s t : List Char} {holds : Bool} : (∀ c ∈ g, ¬ IsParen c) →
    flatVerdict? g = .ok (some holds) → Collapses s t →
    Collapses ('(' :: (g ++ ')' :: s)) (Formula.digit holds :: t)

namespace Collapses

variable {s s' t t' u : List Char} {c : Char}

theorem append (h : Collapses s s') (ht : Collapses t t') : Collapses (s ++ t) (s' ++ t') := by
  induction h with
  | nil => exact ht
  | keep c _ ih => exact ih.keep c
  | group hg hflat _ ih =>
    rw [List.cons_append, List.append_assoc]
    exact ih.group hg hflat

/-- A character stands for itself, or it is a digit that stands for a group. -/
theorem of_cons (h : Collapses u (c :: t)) : (∃ s, u = c :: s ∧ Collapses s t) ∨
    ∃ g s holds, u = '(' :: (g ++ ')' :: s) ∧ (∀ d ∈ g, ¬ IsParen d) ∧
      flatVerdict? g = .ok (some holds) ∧ c = Formula.digit holds ∧ Collapses s t := by
  cases h with
  | keep _ h => exact .inl ⟨_, rfl, h⟩
  | group hg hflat h => exact .inr ⟨_, _, _, rfl, hg, hflat, rfl, h⟩

theorem of_cons_paren (h : Collapses u (c :: t)) (hc : IsParen c) :
    ∃ s, u = c :: s ∧ Collapses s t := by
  rcases h.of_cons with hkeep | ⟨_, _, holds, _, _, _, rfl, _⟩
  · exact hkeep
  · exact absurd hc (isSymbol_digit holds).not_isParen

theorem of_append (h : Collapses u (s ++ t)) :
    ∃ s' t', u = s' ++ t' ∧ Collapses s' s ∧ Collapses t' t := by
  induction s generalizing u with
  | nil => exact ⟨[], u, rfl, .nil, h⟩
  | cons c s ih =>
    rcases h.of_cons with ⟨u', rfl, h'⟩ | ⟨g, u', holds, rfl, hg, hflat, rfl, h'⟩
    · obtain ⟨s', t', rfl, hs, ht⟩ := ih h'
      exact ⟨c :: s', t', rfl, hs.keep c, ht⟩
    · obtain ⟨s', t', rfl, hs, ht⟩ := ih h'
      exact ⟨'(' :: (g ++ ')' :: s'), t', by simp, hs.group hg hflat, ht⟩

theorem mem_of_mem (h : Collapses s t) (hc : c ∈ t) : c ∈ s ∨ IsSymbol c := by
  induction h with
  | nil => cases hc
  | keep d _ ih =>
    rcases List.mem_cons.mp hc with rfl | hc
    · exact .inl List.mem_cons_self
    · exact (ih hc).imp (List.mem_cons_of_mem d) id
  | @group g s t holds _ _ _ ih =>
    rcases List.mem_cons.mp hc with rfl | hc
    · exact .inr (isSymbol_digit holds)
    · have hsub : c ∈ s → c ∈ '(' :: (g ++ ')' :: s) := fun hcs => by simp [hcs]
      exact (ih hc).imp hsub id

end Collapses

theorem collapses_self (s : List Char) : Collapses s s := by
  induction s with
  | nil => exact .nil
  | cons c s ih => exact ih.keep c

/-- `g` is the inside of a group in a text, and has no parenthesis itself. -/
def InnerGroup (g s : List Char) : Prop :=
  (∀ c ∈ g, ¬ IsParen c) ∧ ∃ before after, s = before ++ '(' :: (g ++ ')' :: after)

namespace InnerGroup

variable {g s : List Char}

theorem append (h : InnerGroup g s) (t : List Char) : InnerGroup g (s ++ t) := by
  obtain ⟨hparens, before, after, rfl⟩ := h
  exact ⟨hparens, before, after ++ t, by simp⟩

theorem mem {c : Char} (h : InnerGroup g s) (hc : c ∈ g) : c ∈ s := by
  obtain ⟨_, before, after, rfl⟩ := h
  simp [hc]

end InnerGroup

namespace Pass

variable {p q : Pass} {s u : List Char} {c : Char} {e : RuleError}

/-- What a pass knows about the text it has read: all before the parenthesis that may open a group
has collapsed into what is done, and no other parenthesis follows that one. -/
inductive Tracks : Pass → List Char → Prop
  | outside {done s : List Char} {changed : Bool} : Collapses s done.reverse →
    Tracks ⟨done, none, changed⟩ s
  | inside {done g before : List Char} {changed : Bool} : (∀ c ∈ g, ¬ IsParen c) →
    Collapses before done.reverse → Tracks ⟨done, some g, changed⟩ (before ++ '(' :: g.reverse)

theorem tracks_start : Tracks start [] := .outside .nil

theorem Tracks.flush (h : Tracks p s) : Collapses s p.flush.reverse := by
  cases h with
  | outside h => exact h
  | @inside done g _ _ _ hbefore =>
    have hgroup := hbefore.append (collapses_self ('(' :: g.reverse))
    simpa [Pass.flush] using hgroup

/-- A group that closes has characters. -/
theorem step_close {g : List Char} (hp : p.inner = some g) (hne : g ≠ []) :
    p.step ')' = (flatVerdict? g.reverse).map fun holds =>
      ⟨Formula.digit (holds.getD false) :: p.done, none, true⟩ := by
  obtain ⟨c, g, rfl⟩ := List.exists_cons_of_ne_nil hne
  simp only [Pass.step, hp]

theorem run_plain (hs : ∀ c ∈ s, ¬ IsParen c) (p : Pass) :
    s.foldlM Pass.step p = .ok (p.append s) := by
  induction s generalizing p with
  | nil =>
    rw [Pass.append_nil]
    rfl
  | cons c s ih =>
    obtain ⟨hc, hs⟩ := List.forall_mem_cons.mp hs
    obtain ⟨ho, hclose⟩ := not_or.mp hc
    rw [foldlM_cons_ok (step_plain ho hclose), ih hs, append_append]
    rfl

/-- A pass over a group that holds no parenthesis and has a verdict. -/
theorem run_group {g : List Char} {holds : Bool} (hg : ∀ c ∈ g, ¬ IsParen c)
    (hflat : flatVerdict? g = .ok (some holds)) (p : Pass) :
    ('(' :: (g ++ ')' :: u)).foldlM Pass.step p =
      u.foldlM Pass.step ⟨Formula.digit holds :: p.flush, none, true⟩ := by
  have hne : g.reverse ++ [] ≠ [] := by
    rintro hnil
    rw [List.append_nil, List.reverse_eq_nil_iff] at hnil
    subst hnil
    cases hflat
  have hopen : p.step '(' = .ok ⟨p.flush, some [], p.changed⟩ := rfl
  have hclose : (Pass.append ⟨p.flush, some [], p.changed⟩ g).step ')' =
      .ok ⟨Formula.digit holds :: p.flush, none, true⟩ := by
    rw [step_close rfl hne, List.append_nil, List.reverse_reverse, hflat]
    rfl
  rw [foldlM_cons_ok hopen, foldlM_append_ok (run_plain hg _), foldlM_cons_ok hclose]

theorem Tracks.append (h : Tracks p s) (hc : ¬ IsParen c) : Tracks (p.append [c]) (s ++ [c]) := by
  cases h with
  | outside h =>
    have hkeep := h.append (collapses_self [c])
    rw [← List.reverse_cons] at hkeep
    exact .outside hkeep
  | @inside done g before changed hparens hbefore =>
    have hinside : Tracks ⟨done, some (c :: g), changed⟩ (before ++ '(' :: (c :: g).reverse) :=
      .inside (List.forall_mem_cons.mpr ⟨hc, hparens⟩) hbefore
    rwa [List.reverse_cons, ← List.cons_append, ← List.append_assoc] at hinside

theorem Tracks.close (h : Tracks p s) (hstep : p.step ')' = .ok q) : Tracks q (s ++ [')']) := by
  have hkeep : Collapses (s ++ [')']) (')' :: p.flush).reverse := by
    rw [List.reverse_cons]
    exact h.flush.append (collapses_self [')'])
  cases h with
  | outside h =>
    cases hstep
    exact .outside hkeep
  | @inside done g before changed hparens hbefore =>
    by_cases hne : g = []
    · subst hne
      cases hstep
      exact .outside hkeep
    rw [step_close rfl hne] at hstep
    cases hflat : flatVerdict? g.reverse with
    | error e =>
      rw [hflat] at hstep
      cases hstep
    | ok v =>
      rw [hflat] at hstep
      cases hstep
      rcases flatVerdict?_eq_ok hflat with ⟨hnil, _⟩ | ⟨_, _, holds, _, _, rfl⟩
      · exact absurd (List.reverse_eq_nil_iff.mp hnil) hne
      · have hgroup : Collapses ('(' :: (g.reverse ++ ')' :: [])) [Formula.digit holds] :=
          .group (fun c hc => hparens c (List.mem_reverse.mp hc)) hflat .nil
        have hall : Collapses (before ++ '(' :: (g.reverse ++ [')']))
            (Formula.digit holds :: done).reverse := by
          rw [List.reverse_cons]
          exact hbefore.append hgroup
        rw [List.append_assoc, List.cons_append]
        exact .outside hall

theorem Tracks.step (h : Tracks p s) (hstep : p.step c = .ok q) : Tracks q (s ++ [c]) := by
  by_cases ho : c = '('
  · subst ho
    cases hstep
    exact .inside nofun h.flush
  by_cases hc : c = ')'
  · subst hc
    exact h.close hstep
  · rw [step_plain ho hc] at hstep
    cases hstep
    exact h.append (not_or.mpr ⟨ho, hc⟩)

/-- A pass can fail where a group closes that has no verdict. -/
theorem Tracks.step_error (h : Tracks p s) (hstep : p.step c = .error e) :
    ∃ g, InnerGroup g (s ++ [c]) ∧ flatVerdict? g = .error e := by
  by_cases ho : c = '('
  · subst ho
    cases hstep
  by_cases hc : c = ')'
  · subst hc
    cases h with
    | outside => cases hstep
    | @inside done g before changed hparens hbefore =>
      by_cases hne : g = []
      · subst hne
        cases hstep
      rw [step_close rfl hne] at hstep
      cases hflat : flatVerdict? g.reverse with
      | ok v =>
        rw [hflat] at hstep
        cases hstep
      | error e' =>
        rw [hflat] at hstep
        cases hstep
        have hparens' : ∀ d ∈ g.reverse, ¬ IsParen d := fun d hd => hparens d (List.mem_reverse.mp hd)
        exact ⟨g.reverse, ⟨hparens', before, [], by simp⟩, hflat⟩
  · rw [step_plain ho hc] at hstep
    cases hstep

theorem Tracks.run (h : Tracks p s) (hrun : u.foldlM Pass.step p = .ok q) : Tracks q (s ++ u) :=
  foldlM_reads (fun _ _ _ _ _ hp hs => hp.step hs) h hrun

theorem Tracks.run_error (h : Tracks p s) (hrun : u.foldlM Pass.step p = .error e) :
    ∃ g, InnerGroup g (s ++ u) ∧ flatVerdict? g = .error e := by
  obtain ⟨before, c, after, p', rfl, hbefore, hstep⟩ := foldlM_eq_error hrun
  obtain ⟨g, hgroup, hflat⟩ := (h.run hbefore).step_error hstep
  have hall := hgroup.append after
  rw [List.append_assoc, List.append_assoc, List.singleton_append] at hall
  exact ⟨g, hall, hflat⟩

end Pass

section Reduction

variable {s t : List Char} {changed : Bool} {e : RuleError} {fuel : Nat}

theorem collapses_of_reduceGroups (h : reduceGroups s = .ok (t, changed)) : Collapses s t := by
  unfold reduceGroups at h
  cases hrun : s.foldlM Pass.step .start with
  | error e => rw [hrun] at h; cases h
  | ok p =>
    rw [hrun] at h
    cases h
    exact (Pass.tracks_start.run hrun).flush

theorem reduceGroups_eq_error (h : reduceGroups s = .error e) :
    ∃ g, InnerGroup g s ∧ flatVerdict? g = .error e := by
  unfold reduceGroups at h
  cases hrun : s.foldlM Pass.step .start with
  | ok p => rw [hrun] at h; cases h
  | error e' =>
    rw [hrun] at h
    cases h
    exact Pass.tracks_start.run_error hrun

/-- All the passes over a text. -/
theorem collapses_of_reduceAll (h : reduceAll fuel s = .ok t) :
    Relation.ReflTransGen Collapses s t := by
  induction fuel generalizing s with
  | zero =>
    cases h
    exact .refl
  | succ fuel ih =>
    unfold reduceAll at h
    cases hpass : reduceGroups s with
    | error e => rw [hpass] at h; cases h
    | ok r =>
      obtain ⟨s', changed⟩ := r
      rw [hpass] at h
      cases changed with
      | false =>
        cases h
        exact .refl
      | true => exact .head (collapses_of_reduceGroups hpass) (ih h)

theorem reduceAll_eq_error (h : reduceAll fuel s = .error e) :
    ∃ c ∈ s, ¬ IsSymbol c ∧ e = .badAlgebra c := by
  induction fuel generalizing s with
  | zero => cases h
  | succ fuel ih =>
    unfold reduceAll at h
    cases hpass : reduceGroups s with
    | error e' =>
      rw [hpass] at h
      cases h
      obtain ⟨g, hgroup, hflat⟩ := reduceGroups_eq_error hpass
      obtain ⟨c, hc, hbad, he⟩ := flatVerdict?_eq_error hflat
      exact ⟨c, hgroup.mem hc, hbad, he⟩
    | ok r =>
      obtain ⟨s', changed⟩ := r
      rw [hpass] at h
      cases changed with
      | false => cases h
      | true =>
        obtain ⟨c, hc, hbad, he⟩ := ih h
        have hmem := (collapses_of_reduceGroups hpass).mem_of_mem hc
        exact ⟨c, hmem.resolve_right hbad, hbad, he⟩

/-- A text has a verdict if what all passes leave of it can be read. -/
theorem verdict_eq_ok {holds : Bool} (h : verdict s = .ok holds) :
    ∃ t v, Relation.ReflTransGen Collapses s t ∧ flatVerdict? t = .ok v ∧ v.getD false = holds := by
  unfold verdict at h
  cases hall : reduceAll s.length s with
  | error e => rw [hall] at h; cases h
  | ok t =>
    cases hflat : flatVerdict? t with
    | error e =>
      rw [hall] at h
      simp [hflat, bind, Except.bind] at h
    | ok v =>
      rw [hall] at h
      simp only [hflat, bind, Except.bind] at h
      exact ⟨t, v, collapses_of_reduceAll hall, hflat, Except.ok.inj h⟩

theorem mem_of_reflTransGen {c : Char} (h : Relation.ReflTransGen Collapses s t) (hc : c ∈ t)
    (hbad : ¬ IsSymbol c) : c ∈ s := by
  induction h with
  | refl => exact hc
  | tail _ hlast ih => exact ih ((hlast.mem_of_mem hc).resolve_right hbad)

/-- A text without a verdict holds the character that the error names. -/
theorem verdict_eq_error (h : verdict s = .error e) :
    ∃ c ∈ s, ¬ IsSymbol c ∧ e = .badAlgebra c := by
  unfold verdict at h
  cases hall : reduceAll s.length s with
  | error e' =>
    rw [hall] at h
    cases h
    exact reduceAll_eq_error hall
  | ok t =>
    cases hflat : flatVerdict? t with
    | ok v =>
      rw [hall] at h
      simp [hflat, bind, Except.bind, pure, Except.pure] at h
    | error e' =>
      rw [hall] at h
      simp only [hflat, bind, Except.bind] at h
      cases h
      obtain ⟨c, hc, hbad, he⟩ := flatVerdict?_eq_error hflat
      exact ⟨c, mem_of_reflTransGen (collapses_of_reduceAll hall) hc hbad, hbad, he⟩

end Reduction

end Verdict.Algebra
