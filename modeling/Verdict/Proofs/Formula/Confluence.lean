import Verdict.Proofs.Formula.Collapse

namespace Verdict

namespace Algebra

open Relation (ReflTransGen)

variable {g s t u a b : List Char} {v : Option Bool} {holds changed : Bool}

/-- A cut before a parenthesis does not lie within a text that has none. -/
theorem append_paren_cases {c d : Char} {x : List Char} (hg : ∀ c ∈ g, ¬ IsParen c)
    (hc : IsParen c) (h : u ++ c :: x = g ++ d :: s) :
    (u = g ∧ c = d ∧ x = s) ∨ ∃ r, u = g ++ d :: r ∧ s = r ++ c :: x := by
  induction g generalizing u with
  | nil =>
    cases u with
    | nil =>
      obtain ⟨rfl, rfl⟩ := List.cons.inj h
      exact .inl ⟨rfl, rfl, rfl⟩
    | cons e u =>
      obtain ⟨rfl, rfl⟩ := List.cons.inj h
      exact .inr ⟨u, rfl, rfl⟩
  | cons e g ih =>
    cases u with
    | nil =>
      obtain ⟨rfl, _⟩ := List.cons.inj h
      exact absurd hc (hg c List.mem_cons_self)
    | cons f u =>
      obtain ⟨rfl, hrest⟩ := List.cons.inj h
      rcases ih (List.forall_mem_cons.mp hg).2 hrest with ⟨rfl, rfl, rfl⟩ | ⟨r, rfl, rfl⟩
      · exact .inl ⟨rfl, rfl, rfl⟩
      · exact .inr ⟨r, rfl, rfl⟩

theorem append_close_inj {x y : List Char} (hs : ∀ c ∈ s, ¬ IsParen c) (ht : ∀ c ∈ t, ¬ IsParen c)
    (h : s ++ ')' :: x = t ++ ')' :: y) : s = t ∧ x = y := by
  rcases append_paren_cases ht (.inr rfl) h with ⟨rfl, _, rfl⟩ | ⟨r, rfl, _⟩
  · exact ⟨rfl, rfl⟩
  · exact absurd (.inr rfl) (hs ')' (by simp))

namespace Collapses

theorem of_ne {c : Char} (hc : c ≠ '(') (h : Collapses (c :: s) t) :
    ∃ t', t = c :: t' ∧ Collapses s t' := by
  cases h with
  | keep _ h => exact ⟨_, rfl, h⟩
  | group => exact absurd rfl hc

/-- The inside of a group stays as long as the group does. -/
theorem of_plain_close (hg : ∀ c ∈ g, ¬ IsParen c) (h : Collapses (g ++ ')' :: s) t) :
    ∃ t', t = g ++ ')' :: t' ∧ Collapses s t' := by
  induction g generalizing t with
  | nil => exact h.of_ne (by decide)
  | cons c g ih =>
    obtain ⟨hc, hrest⟩ := List.forall_mem_cons.mp hg
    obtain ⟨u, rfl, hu⟩ := of_ne (fun heq => hc (.inl heq)) h
    obtain ⟨t', rfl, hst⟩ := ih hrest hu
    exact ⟨t', rfl, hst⟩

/-- A group without parentheses stays or becomes the digit of its verdict. -/
theorem of_group (hg : ∀ c ∈ g, ¬ IsParen c) (h : Collapses ('(' :: (g ++ ')' :: s)) t) :
    ∃ t', Collapses s t' ∧ (t = '(' :: (g ++ ')' :: t') ∨
      ∃ holds, flatVerdict? g = .ok (some holds) ∧ t = Formula.digit holds :: t') := by
  generalize hgroup : '(' :: (g ++ ')' :: s) = whole at h
  cases h with
  | nil => cases hgroup
  | keep _ h =>
    cases hgroup
    obtain ⟨t', rfl, hst⟩ := h.of_plain_close hg
    exact ⟨t', hst, .inl rfl⟩
  | group hg' hflat hst =>
    obtain ⟨rfl, rfl⟩ := append_close_inj hg hg' (List.cons.inj hgroup).2
    exact ⟨_, hst, .inr ⟨_, hflat, rfl⟩⟩

/-- Two collapses of a text have one in common, so that the order in which groups are replaced does
not matter. -/
theorem diamond (ha : Collapses s a) (hb : Collapses s b) :
    ∃ d, Collapses a d ∧ Collapses b d := by
  induction ha generalizing b with
  | nil =>
    cases hb
    exact ⟨[], .nil, .nil⟩
  | @keep c s a ha ih =>
    cases hb with
    | keep _ hb =>
      obtain ⟨d, had, hbd⟩ := ih hb
      exact ⟨c :: d, had.keep c, hbd.keep c⟩
    | @group g _ b' holds hg hflat hb =>
      -- On the one side the group is still there, so that it can be replaced now.
      obtain ⟨a', rfl, _⟩ := ha.of_plain_close hg
      obtain ⟨d, had, hbd⟩ := ih ((collapses_self g).append (hb.keep ')'))
      obtain ⟨d', rfl, had'⟩ := had.of_plain_close hg
      obtain ⟨_, heq, hbd'⟩ := hbd.of_plain_close hg
      obtain ⟨_, rfl⟩ := append_close_inj hg hg heq
      exact ⟨Formula.digit holds :: d', .group hg hflat had', hbd'.keep _⟩
  | @group g s a holds hg hflat _ ih =>
    obtain ⟨b', hsb, rfl | ⟨holds', hflat', rfl⟩⟩ := hb.of_group hg
    · obtain ⟨d, had, hbd⟩ := ih hsb
      exact ⟨Formula.digit holds :: d, had.keep _, .group hg hflat hbd⟩
    · cases hflat.symm.trans hflat'
      obtain ⟨d, had, hbd⟩ := ih hsb
      exact ⟨Formula.digit holds :: d, had.keep _, hbd.keep _⟩

theorem eq_or_group (h : Collapses s t) : t = s ∨
    ∃ g holds, InnerGroup g s ∧ flatVerdict? g = .ok (some holds) := by
  induction h with
  | nil => exact .inl rfl
  | keep c _ ih =>
    rcases ih with rfl | ⟨g, holds, ⟨hg, before, after, rfl⟩, hflat⟩
    · exact .inl rfl
    · exact .inr ⟨g, holds, ⟨hg, c :: before, after, rfl⟩, hflat⟩
  | @group g s t holds hg hflat _ _ => exact .inr ⟨g, holds, ⟨hg, [], s, rfl⟩, hflat⟩

/-- A group without a verdict stays in the text. -/
theorem innerGroup (h : Collapses s t) {e : RuleError} (hgroup : InnerGroup g s)
    (herror : flatVerdict? g = .error e) : InnerGroup g t := by
  obtain ⟨hg, before, after, hs⟩ := hgroup
  refine ⟨hg, ?_⟩
  induction h generalizing before with
  | nil => simp at hs
  | @keep c s t h ih =>
    cases before with
    | nil =>
      obtain ⟨rfl, rfl⟩ := List.cons.inj hs
      obtain ⟨t', rfl, _⟩ := h.of_plain_close hg
      exact ⟨[], t', rfl⟩
    | cons d before =>
      obtain ⟨rfl, rfl⟩ := List.cons.inj hs
      obtain ⟨before', after', rfl⟩ := ih before rfl
      exact ⟨c :: before', after', rfl⟩
  | @group g' s t holds hg' hflat _ ih =>
    cases before with
    | nil =>
      obtain ⟨rfl, _⟩ := append_close_inj hg' hg (List.cons.inj hs).2
      cases herror.symm.trans hflat
    | cons d before =>
      obtain ⟨_, hrest⟩ := List.cons.inj hs
      rcases append_paren_cases hg' (.inl rfl) hrest.symm with ⟨_, hparen, _⟩ | ⟨r, rfl, rfl⟩
      · cases hparen
      · obtain ⟨before', after', rfl⟩ := ih r rfl
        exact ⟨Formula.digit holds :: before', after', rfl⟩

end Collapses

section Flat

/-- A text that can be read has no group. -/
theorem not_innerGroup_of_flat (h : flatVerdict? s = .ok v) : ¬ InnerGroup g s := by
  rintro ⟨_, before, after, rfl⟩
  have hclose : ∀ {c rest}, before ++ '(' :: (g ++ ')' :: after) = c :: rest → ')' ∈ rest := by
    intro c rest hcons
    cases before <;> obtain ⟨_, rfl⟩ := List.cons.inj hcons <;> simp
  rcases flatVerdict?_eq_ok h with ⟨hnil, _⟩ | ⟨c, rest, _, hcons, hrest, _⟩
  · simp at hnil
  · exact (hrest ')' (hclose hcons)).not_isParen (.inr rfl)

/-- A text without a group that has a verdict does not collapse any further. -/
theorem eq_of_reaches (h : ∀ g holds, flatVerdict? g = .ok (some holds) → ¬ InnerGroup g s)
    (hst : ReflTransGen Collapses s t) : t = s := by
  induction hst with
  | refl => rfl
  | tail _ hlast ih =>
    subst ih
    rcases hlast.eq_or_group with heq | ⟨g, holds, hgroup, hg⟩
    · exact heq
    · exact absurd hgroup (h g holds hg)

theorem eq_of_flat (h : flatVerdict? s = .ok v) (hst : ReflTransGen Collapses s t) : t = s :=
  eq_of_reaches (fun _ _ _ => not_innerGroup_of_flat h) hst

/-- What a text collapses to, if it can be read, it collapses to by whatever way. -/
theorem reaches_of_collapses (hsa : Collapses s a) (hst : ReflTransGen Collapses s t)
    (hflat : flatVerdict? t = .ok v) : ReflTransGen Collapses a t := by
  have hdiamond : ∀ x y z, Collapses x y → Collapses x z →
      ∃ d, Relation.ReflGen Collapses y d ∧ ReflTransGen Collapses z d := by
    intro x y z hxy hxz
    obtain ⟨d, hyd, hzd⟩ := hxy.diamond hxz
    exact ⟨d, .single hyd, .single hzd⟩
  obtain ⟨d, had, htd⟩ := Relation.church_rosser hdiamond (.single hsa) hst
  rwa [eq_of_flat hflat htd] at had

theorem not_innerGroup_of_reaches {e : RuleError} (hst : ReflTransGen Collapses s t)
    (hflat : flatVerdict? t = .ok v) (herror : flatVerdict? g = .error e) : ¬ InnerGroup g s := by
  intro hgroup
  have hgroup' : InnerGroup g t := by
    clear hflat
    induction hst with
    | refl => exact hgroup
    | tail _ hlast ih => exact hlast.innerGroup ih herror
  exact not_innerGroup_of_flat hflat hgroup'

end Flat

namespace Pass

variable {p q : Pass} {c : Char} {n : Nat}

/-- A step puts its character behind what it has, or it replaces a group by one character. -/
theorem step_eq_ok (h : p.step c = .ok q) : (q.changed = p.changed ∧ q.flush = c :: p.flush) ∨
    (q.changed = true ∧ q.flush.length < p.flush.length) := by
  by_cases ho : c = '('
  · subst ho
    cases h
    exact .inl ⟨rfl, rfl⟩
  by_cases hc : c = ')'
  · subst hc
    obtain ⟨done, inner, changed⟩ := p
    rcases inner with _ | _ | ⟨d, g⟩
    · cases h
      exact .inl ⟨rfl, rfl⟩
    · cases h
      exact .inl ⟨rfl, rfl⟩
    · rw [step_close rfl (List.cons_ne_nil d g), map_eq_ok_iff] at h
      obtain ⟨holds, _, rfl⟩ := h
      refine .inr ⟨rfl, ?_⟩
      simp only [flush, List.length_cons, List.length_append]
      omega
  · rw [step_plain ho hc] at h
    cases h
    refine .inl ⟨?_, flush_append p [c]⟩
    unfold append
    split <;> rfl

theorem changed_step (hp : p.changed = true) (h : p.step c = .ok q) : q.changed = true := by
  rcases step_eq_ok h with ⟨hchanged, _⟩ | ⟨hchanged, _⟩
  · rw [hchanged, hp]
  · exact hchanged

/-- What is kept of `n` characters is no longer than they are, and shorter if a group has been
replaced. -/
def Shortens (p : Pass) (n : Nat) : Prop :=
  p.flush.length ≤ n ∧ (p.changed = true → p.flush.length < n)

theorem Shortens.step (hp : p.Shortens n) (h : p.step c = .ok q) : q.Shortens (n + 1) := by
  obtain ⟨hle, hlt⟩ := hp
  rcases step_eq_ok h with ⟨hchanged, hflush⟩ | ⟨_, hlength⟩
  · rw [Shortens, hchanged, hflush, List.length_cons]
    exact ⟨Nat.succ_le_succ hle, fun hp => Nat.succ_lt_succ (hlt hp)⟩
  · exact ⟨by omega, fun _ => by omega⟩

theorem Shortens.run (hp : p.Shortens n) (h : s.foldlM Pass.step p = .ok q) :
    q.Shortens (n + s.length) := by
  refine foldlM_reads (P := fun p r => p.Shortens (n + r.length)) (r := [])
    (fun p r q c _ hp hs => ?_) hp h
  rw [List.length_append, ← Nat.add_assoc]
  exact hp.step hs

end Pass

section Reduction

variable {fuel : Nat}

theorem length_lt_of_reduceGroups (h : reduceGroups s = .ok (t, true)) : t.length < s.length := by
  obtain ⟨p, hrun, hp⟩ := map_eq_ok_iff.mp h
  obtain ⟨rfl, hchanged⟩ := Prod.mk.inj hp
  have hstart : Pass.start.Shortens 0 := ⟨Nat.le_refl _, nofun⟩
  have hlt := (hstart.run hrun).2 hchanged
  rwa [Nat.zero_add, ← List.length_reverse] at hlt

/-- A pass does not pass by a group that has a verdict. -/
theorem changed_of_innerGroup (hgroup : InnerGroup g s) (hflat : flatVerdict? g = .ok (some holds))
    (h : reduceGroups s = .ok (t, changed)) : changed = true := by
  obtain ⟨hg, before, after, rfl⟩ := hgroup
  obtain ⟨p, hrun, hp⟩ := map_eq_ok_iff.mp h
  obtain ⟨_, rfl⟩ := Prod.mk.inj hp
  rw [List.foldlM_append] at hrun
  obtain ⟨q, _, hafter⟩ := bind_eq_ok_iff.mp hrun
  rw [Pass.run_group hg hflat] at hafter
  exact foldlM_keeps (P := fun p => p.changed = true) (fun _ _ _ hp hs => Pass.changed_step hp hs)
    rfl hafter

/-- As many passes as the text has characters are enough: one more would replace nothing. -/
theorem exists_unchanged_of_reduceAll (h : reduceAll fuel s = .ok t) (hfuel : s.length ≤ fuel) :
    ∃ u, reduceGroups t = .ok (u, false) := by
  induction fuel generalizing s with
  | zero =>
    obtain rfl : s = [] := List.eq_nil_of_length_eq_zero (by omega)
    cases h
    exact ⟨[], rfl⟩
  | succ fuel ih =>
    rw [reduceAll] at h
    obtain ⟨⟨s', changed⟩, hpass, hrest⟩ := bind_eq_ok_iff.mp h
    cases changed with
    | false =>
      cases hrest
      exact ⟨s', hpass⟩
    | true =>
      have hlt := length_lt_of_reduceGroups hpass
      exact ih hrest (by omega)

/-- As many passes as the text has characters reach what it collapses to. -/
theorem reduceAll_of_reaches (hst : ReflTransGen Collapses s t) (hflat : flatVerdict? t = .ok v)
    (hfuel : s.length ≤ fuel) : reduceAll fuel s = .ok t := by
  induction fuel generalizing s with
  | zero =>
    obtain rfl : s = [] := List.eq_nil_of_length_eq_zero (by omega)
    rw [eq_of_flat (v := none) rfl hst]
    rfl
  | succ fuel ih =>
    rw [reduceAll]
    cases hpass : reduceGroups s with
    | error e =>
      obtain ⟨g, hgroup, herror⟩ := reduceGroups_eq_error hpass
      exact absurd hgroup (not_innerGroup_of_reaches hst hflat herror)
    | ok result =>
      obtain ⟨s', changed⟩ := result
      cases changed with
      | true =>
        have hlt := length_lt_of_reduceGroups hpass
        have hnext := reaches_of_collapses (collapses_of_reduceGroups hpass) hst hflat
        exact ih hnext (by omega)
      | false =>
        have hdone : ∀ g holds, flatVerdict? g = .ok (some holds) → ¬ InnerGroup g s := by
          intro g holds hg hgroup
          cases changed_of_innerGroup hgroup hg hpass
        rw [eq_of_reaches hdone hst]
        rfl

/-- A text has the verdict of what it collapses to. -/
theorem verdict_eq_ok_iff : verdict s = .ok holds ↔
    ∃ t v, ReflTransGen Collapses s t ∧ flatVerdict? t = .ok v ∧ v.getD false = holds := by
  constructor
  · exact verdict_eq_ok
  · rintro ⟨t, v, hst, hflat, rfl⟩
    rw [verdict, reduceAll_of_reaches hst hflat (Nat.le_refl _)]
    change (do return (← flatVerdict? t).getD false) = _
    rw [hflat]
    rfl

theorem verdict_of_collapses (h : Collapses s t) :
    verdict s = .ok holds ↔ verdict t = .ok holds := by
  rw [verdict_eq_ok_iff, verdict_eq_ok_iff]
  constructor
  · rintro ⟨u, v, hsu, hflat, hv⟩
    exact ⟨u, v, reaches_of_collapses h hsu hflat, hflat, hv⟩
  · rintro ⟨u, v, htu, hflat, hv⟩
    exact ⟨u, v, .head h htu, hflat, hv⟩

end Reduction

end Algebra

open Verdict.Algebra

/-- A group without parentheses inside that has a verdict may be replaced by the digit of it before
the text is read, whatever stands around it: either both texts have a verdict, and the same one, or
neither has. -/
theorem verdict_replace_group (p g q : List Char) (b : Bool) (hg : ∀ c ∈ g, ¬ IsParen c)
    (hflat : flatVerdict? g = .ok (some b)) (holds : Bool) :
    Algebra.verdict (p ++ '(' :: g ++ ')' :: q) = .ok holds ↔
      Algebra.verdict (p ++ Formula.digit b :: q) = .ok holds := by
  have hgroup : Collapses ('(' :: (g ++ ')' :: q)) (Formula.digit b :: q) :=
    .group hg hflat (collapses_self q)
  have hwhole : Collapses (p ++ '(' :: g ++ ')' :: q) (p ++ Formula.digit b :: q) := by
    rw [List.append_assoc]
    exact (collapses_self p).append hgroup
  exact verdict_of_collapses hwhole

/-- The parentheses around the group need not be balanced. -/
theorem verdict_replace_group_unbalanced :
    let p := ")1&(".toList
    let g := "x|1".toList
    let q := "&0)|1".toList
    (∀ c ∈ g, ¬ IsParen c) ∧ flatVerdict? g = .ok (some true) ∧
      Algebra.verdict (p ++ '(' :: g ++ ')' :: q) = .ok true ∧
      Algebra.verdict (p ++ Formula.digit true :: q) = .ok true := by
  intro p g q
  have hg : ∀ c ∈ g, ¬ IsParen c := by simp [g, IsParen]
  have hflat : flatVerdict? g = .ok (some true) := rfl
  have hverdict : Algebra.verdict (p ++ Formula.digit true :: q) = .ok true := rfl
  exact ⟨hg, hflat, (verdict_replace_group p g q true hg hflat true).mpr hverdict, hverdict⟩

end Verdict
