import Verdict.Proofs.Pattern.Matching

namespace Verdict

theorem head?_distinct (spots : List Spot) : (distinct spots).head? = spots.head? := by
  unfold distinct
  split
  next => rfl
  next => rfl
  next =>
    cases spots with
    | nil => rfl
    | cons s spots =>
      rw [List.head?_reverse, List.foldl_cons]
      -- The spots that are kept are only added to, so that the one kept first stays the last.
      refine List.foldlRecOn (motive := fun kept : List Spot × Nat => kept.1.getLast? = some s)
        spots _ (by simp) ?_
      rintro ⟨kept, seen⟩ hkept t _
      dsimp only at hkept ⊢
      split
      next => exact hkept
      next => simp [List.getLast?_cons, hkept]

namespace Sweep

variable {step : Spot → List Spot} {number : Nat → Spot → Nat} {greedy : Bool} {w : Sweep}
  {s t : Spot}

/-- The spot found first. -/
def first (w : Sweep) : Option Spot := w.found.getLast?

@[simp] theorem first_begin (w : Sweep) (n : Nat) : (w.begin n).first = w.first := rfl

theorem testBit_begin (w : Sweep) (n k : Nat) :
    (w.begin n).begun.testBit k = (w.begun.testBit k || decide (n = k)) := by
  simp [begin, Nat.testBit_or, Nat.one_shiftLeft, Nat.testBit_two_pow]

theorem first_report (w : Sweep) (s : Spot) : (w.report s).first = w.first.or (some s) := by
  simp [first, report, List.getLast?_cons, Option.or_some]

theorem first_reportAll (w : Sweep) (spots : List Spot) :
    (w.reportAll spots).first = w.first.or spots.head? := by
  unfold reportAll
  induction spots generalizing w with
  | nil => simp
  | cons s spots ih =>
    rw [List.foldl_cons, ih, first_report]
    cases w.first <;> simp

theorem head?_results (w : Sweep) : w.results.head? = w.first := by
  rw [results, head?_distinct, List.head?_reverse, first]

/-- What has been found first stays first. -/
theorem first_visit_of_some {passes : Nat} {after : List Spot} (hw : w.first = some t) :
    (w.visit step number greedy passes s after).first = some t := by
  induction passes generalizing s after w with
  | zero => simp [visit, first_reportAll, first_report, hw]
  | succ passes ih =>
    rw [visit]
    dsimp only
    split
    next => simp [first_reportAll, hw]
    next =>
      have hbegun : (if greedy then w.begin (number passes s)
          else (w.begin (number passes s)).report s).first = some t := by
        split
        next => exact hw
        next => rw [first_report, first_begin, hw]; rfl
      split
      next => simp [first_reportAll, hbegun]
      next => exact ih hbegun
      next =>
        rw [first_reportAll]
        have hall : (List.foldl (fun w t => visit step number greedy passes t [] w)
            (if greedy then w.begin (number passes s)
              else (w.begin (number passes s)).report s) (step s)).first = some t :=
          List.foldlRecOn (motive := fun w => Sweep.first w = some t) (step s) _ hbegun
            fun w hw u _ => ih hw
        rw [hall]
        rfl

end Sweep

namespace Pattern

/-- Wherever the text `m` stands between the character `before` and the text `after`, the end of `m`
is the first end that the matcher gives. -/
def Prefers (p : Pattern) (before : Option Char) (m after : List Char) : Prop :=
  ∀ s : Spot, s.Counted → s.before = before → s.rest = m ++ after →
    ∃ t, (p.ends s).head? = some t ∧ s.Reads m t

/-- Passes of a greedy loop that read the text `m`, each as the pattern prefers to, up to a place
from which no pass goes on. -/
inductive Repeats (p : Pattern) : Option Char → List Char → List Char → Prop
  | stop {before : Option Char} {after : List Char} :
    (∀ m n, after = m ++ n → p.Matches before m n → m = []) → Repeats p before [] after
  | pass {before : Option Char} {m n after : List Char} :
    m ≠ [] → p.Prefers before m (n ++ after) → Repeats p (lastRead before m) n after →
    Repeats p before (m ++ n) after

section Prefers

variable {p q : Pattern} {before : Option Char} {m n after : List Char} {s t : Spot}
  {step : Spot → List Spot} {spots : List Spot}

theorem rest_of_reads (hs : s.rest = m ++ after) (h : s.Reads m t) : t.rest = after :=
  (List.append_cancel_left (hs.symm.trans h.rest)).symm

theorem left_lt_of_reads (hs : s.Counted) (hm : m ≠ []) (h : s.Reads m t) : t.left < s.left := by
  have hlength := List.length_pos_iff.mpr hm
  have hleft := h.left_eq hs
  omega

theorem head?_andThen (hspots : spots.head? = some s) (hstep : (step s).head? = some t) :
    (andThen spots step).head? = some t := by
  unfold andThen
  split
  next => cases hspots
  next => cases hspots; exact hstep
  next =>
    obtain ⟨rest, rfl⟩ := List.head?_eq_some_iff.mp hspots
    rw [head?_distinct, List.flatMap_cons, List.head?_append, hstep]
    rfl

/-- Where a pattern matches nothing the matcher finds no end. -/
theorem ends_eq_nil (hs : s.before = before) (hrest : s.rest = after)
    (h : ∀ m n, after = m ++ n → ¬ p.Matches before m n) : p.ends s = [] := by
  refine List.eq_nil_iff_forall_not_mem.mpr fun t ht => ?_
  obtain ⟨m, hreads, hmatch⟩ := leads_of_mem_ends ht
  exact h m t.rest (hrest.symm.trans hreads.rest) (hs ▸ hmatch)

theorem Prefers.one {set : CharSet} {c : Char} (hc : set.contains c = true) :
    (one set).Prefers before [c] after := by
  intro s _ _ hrest
  have hrest' : s.rest = c :: after := hrest
  refine ⟨{ s with before := some c, rest := after, left := s.left - 1 }, ?_, .next hrest'⟩
  simp [ends, hrest', hc]

theorem Prefers.look {k : Look} (hk : k.holds before after.head? = true) :
    (look k).Prefers before [] after := by
  intro s _ hbefore hrest
  have hholds : k.holds s.before s.rest.head? = true := by rw [hbefore, hrest]; exact hk
  exact ⟨s, by simp [ends, hholds], .refl s⟩

theorem Prefers.seq (hp : p.Prefers before m (n ++ after))
    (hq : q.Prefers (lastRead before m) n after) : (seq p q).Prefers before (m ++ n) after := by
  intro s hs hbefore hrest
  have hrest' : s.rest = m ++ (n ++ after) := by rw [hrest, List.append_assoc]
  obtain ⟨t, hhead, ht⟩ := hp s hs hbefore hrest'
  obtain ⟨u, hhead', hu⟩ := hq t (ht.counted hs) (hbefore ▸ ht.before) (rest_of_reads hrest' ht)
  exact ⟨u, head?_andThen hhead hhead', ht.trans hu⟩

theorem Prefers.left (hp : p.Prefers before m after) : (alt p q).Prefers before m after := by
  intro s hs hbefore hrest
  obtain ⟨t, hhead, ht⟩ := hp s hs hbefore hrest
  refine ⟨t, ?_, ht⟩
  rw [ends, head?_distinct, List.head?_append, hhead]
  rfl

theorem Prefers.right (hp : ∀ x y, m ++ after = x ++ y → ¬ p.Matches before x y)
    (hq : q.Prefers before m after) : (alt p q).Prefers before m after := by
  intro s hs hbefore hrest
  obtain ⟨t, hhead, ht⟩ := hq s hs hbefore hrest
  refine ⟨t, ?_, ht⟩
  rw [ends, head?_distinct, ends_eq_nil hbefore hrest hp]
  exact hhead

theorem head?_optional (s : Spot) :
    ((loop 0 (some 1) true p).ends s).head? = (p.ends s).head?.or (some s) := by
  change (Sweep.results _).head? = _
  rw [Sweep.head?_results, Sweep.visit]
  simp only [Sweep.empty, Nat.zero_testBit, Bool.false_eq_true, if_false, if_true]
  have hnothing : Sweep.first ⟨[], 0⟩ = none := rfl
  split
  next hends => simp [Sweep.first_reportAll, hnothing, hends]
  next t hends =>
    simp [Sweep.visit, Sweep.first_reportAll, Sweep.first_report, hnothing, hends]
  next hends _ =>
    rw [Sweep.first_reportAll]
    have hfold : ∀ (spots : List Spot) (w : Sweep), (spots.foldl (fun w t =>
        w.visit p.ends (fun passes t => passes * (s.left + 1) + t.left) true 0 t []) w).first =
        w.first.or spots.head? := fun spots w => Sweep.first_reportAll w spots
    rw [hfold, Sweep.first_begin, hnothing]
    simp

theorem Prefers.optional (hp : p.Prefers before m after) :
    (loop 0 (some 1) true p).Prefers before m after := by
  intro s hs hbefore hrest
  obtain ⟨t, hhead, ht⟩ := hp s hs hbefore hrest
  exact ⟨t, by rw [head?_optional, hhead]; rfl, ht⟩

theorem Prefers.absent (hp : ∀ x y, after = x ++ y → ¬ p.Matches before x y) :
    (loop 0 (some 1) true p).Prefers before [] after := by
  intro s _ hbefore hrest
  refine ⟨s, ?_, .refl s⟩
  rw [head?_optional, ends_eq_nil hbefore hrest hp]
  rfl

/-- A greedy loop finds the end of its preferred passes first. -/
theorem Repeats.visit (h : p.Repeats before m after) (hs : s.Counted) (hbefore : s.before = before)
    (hrest : s.rest = m ++ after) {passes : Nat} (hpasses : s.left < passes) {later : List Spot}
    {w : Sweep} (hw : w.first = none) (hbegun : ∀ k ≤ s.left, w.begun.testBit k = false) :
    ∃ t, s.Reads m t ∧ (w.visit (advancing p.ends) (fun _ t => t.left) true passes s
      later).first = some t := by
  induction h generalizing s passes later w with
  | @stop before after hstop =>
    obtain ⟨passes, rfl⟩ : ∃ k, passes = k + 1 := ⟨passes - 1, by omega⟩
    refine ⟨s, .refl s, ?_⟩
    have hnone : advancing p.ends s = [] := by
      refine List.filter_eq_nil_iff.mpr fun t ht => ?_
      obtain ⟨x, hreads, hmatch⟩ := leads_of_mem_ends ht
      have hx : x = [] := hstop x t.rest (hrest.symm.trans hreads.rest) (hbefore ▸ hmatch)
      have hleft := hreads.left_eq hs
      simp [hx] at hleft
      simp [hleft]
    rw [Sweep.visit]
    simp only [hbegun s.left (Nat.le_refl _), hnone, Bool.false_eq_true, if_false, if_true]
    rw [Sweep.first_reportAll, Sweep.first_begin, hw]
    rfl
  | @pass before m n after hm hp _ ih =>
    obtain ⟨passes, rfl⟩ : ∃ k, passes = k + 1 := ⟨passes - 1, by omega⟩
    have hrest' : s.rest = m ++ (n ++ after) := by rw [hrest, List.append_assoc]
    obtain ⟨t, hhead, ht⟩ := hp s hs hbefore hrest'
    have hlt := left_lt_of_reads hs hm ht
    have hhead' : (advancing p.ends s).head? = some t := by
      obtain ⟨rest, hends⟩ := List.head?_eq_some_iff.mp hhead
      simp [advancing, hends, hlt]
    have hnext : ∀ later, ∃ u, t.Reads n u ∧ ((w.begin s.left).visit (advancing p.ends)
        (fun _ t => t.left) true passes t later).first = some u := by
      intro later
      refine ih (ht.counted hs) (hbefore ▸ ht.before) (rest_of_reads hrest' ht) (by omega) hw ?_
      intro k hk
      have hne : s.left ≠ k := by omega
      rw [Sweep.testBit_begin, hbegun k (by omega), decide_eq_false hne]
      rfl
    rw [Sweep.visit]
    simp only [hbegun s.left (Nat.le_refl _), Bool.false_eq_true, if_false, if_true]
    split
    next hends => simp [hends] at hhead'
    next u hends =>
      obtain rfl : u = t := by simpa [hends] using hhead'
      obtain ⟨v, hv, hfirst⟩ := hnext (s :: later)
      exact ⟨v, ht.trans hv, hfirst⟩
    next =>
      obtain ⟨v, hv, hfirst⟩ := hnext []
      refine ⟨v, ht.trans hv, ?_⟩
      obtain ⟨rest, hends⟩ := List.head?_eq_some_iff.mp hhead'
      rw [hends, List.foldl_cons, Sweep.first_reportAll]
      have hall := List.foldlRecOn (motive := fun w => Sweep.first w = some v) rest
        (fun w t => Sweep.visit (advancing p.ends) (fun _ t => t.left) true passes t [] w) hfirst
        fun w hw u _ => Sweep.first_visit_of_some hw
      rw [hall]
      rfl

theorem Repeats.visitMany (h : p.Repeats before m after) (hs : s.Counted)
    (hbefore : s.before = before) (hrest : s.rest = m ++ after) :
    ∃ t, s.Reads m t ∧ (visitMany p.ends true s .empty).first = some t :=
  h.visit hs hbefore hrest (Nat.lt_succ_self _) rfl fun _ _ => Nat.zero_testBit _

theorem Prefers.many (hnullable : p.nullable = false) (h : p.Repeats before m after) :
    (loop 0 none true p).Prefers before m after := by
  intro s hs hbefore hrest
  obtain ⟨t, ht, hfirst⟩ := h.visitMany hs hbefore hrest
  refine ⟨t, ?_, ht⟩
  rw [ends, hnullable]
  exact (Sweep.head?_results _).trans hfirst

theorem Prefers.oneOrMore (hm : m ≠ []) (hp : p.Prefers before m (n ++ after))
    (h : p.Repeats (lastRead before m) n after) :
    (loop 1 none true p).Prefers before (m ++ n) after := by
  intro s hs hbefore hrest
  have hrest' : s.rest = m ++ (n ++ after) := by rw [hrest, List.append_assoc]
  obtain ⟨t, hhead, ht⟩ := hp s hs hbefore hrest'
  have hlt := left_lt_of_reads hs hm ht
  obtain ⟨u, hu, hfirst⟩ :=
    h.visitMany (ht.counted hs) (hbefore ▸ ht.before) (rest_of_reads hrest' ht)
  obtain ⟨rest, hends⟩ := List.head?_eq_some_iff.mp hhead
  refine ⟨u, (Sweep.head?_results _).trans ?_, ht.trans hu⟩
  rw [hends, List.foldl_cons, if_pos hlt]
  refine List.foldlRecOn (motive := fun w => Sweep.first w = some u) rest _ hfirst ?_
  intro w hw v _
  split
  next => exact Sweep.first_visit_of_some hw
  next => rw [Sweep.first_report, hw]; rfl

theorem Repeats.stop_of_opens (h : ∀ c, after.head? = some c → p.opens c = false) :
    p.Repeats before [] after := by
  refine .stop fun x y hxy hx => ?_
  cases x with
  | nil => rfl
  | cons c x =>
    have hfalse := h c (by simp [hxy])
    simp [hx.opening.2 c rfl] at hfalse

/-- A greedy loop over a set of characters reads all that follow one another. -/
theorem Repeats.all {set : CharSet} (hm : ∀ c ∈ m, set.contains c = true)
    (hafter : ∀ c, after.head? = some c → set.contains c = false) :
    (one set).Repeats before m after := by
  induction m generalizing before with
  | nil => exact .stop_of_opens hafter
  | cons c m ih =>
    exact .pass (List.cons_ne_nil c []) (.one (hm c List.mem_cons_self))
      (ih fun d hd => hm d (List.mem_cons_of_mem c hd))

theorem Prefers.oneOrMoreOf {set : CharSet} (hne : m ≠ []) (hm : ∀ c ∈ m, set.contains c = true)
    (hafter : ∀ c, after.head? = some c → set.contains c = false) :
    (loop 1 none true (.one set)).Prefers before m after := by
  cases m with
  | nil => exact absurd rfl hne
  | cons c m =>
    exact .oneOrMore (List.cons_ne_nil c []) (.one (hm c List.mem_cons_self))
      (.all (fun d hd => hm d (List.mem_cons_of_mem c hd)) hafter)

end Prefers

end Pattern

/-- A search finds the match that the pattern prefers where the text begins. -/
theorem Regex.matchEnd?_of_prefers {re : Regex} {m after : List Char}
    (h : re.pattern.Prefers none m after) :
    re.matchEnd? (m ++ after) (m ++ after).length = some m.length := by
  obtain ⟨t, hhead, ht⟩ := h (.start (m ++ after) (m ++ after).length) rfl rfl rfl
  have hleft := ht.left_eq (s := .start (m ++ after) (m ++ after).length) rfl
  change (m ++ after).length = _ at hleft
  have hfind : re.pattern.find? (.start (m ++ after) (m ++ after).length) =
      some (.start (m ++ after) (m ++ after).length, t) := by
    unfold Pattern.find? Pattern.findFrom
    split
    next => rw [hhead]; rfl
    next => rw [hhead]
  rw [Regex.matchEnd?, hfind, Option.map_some]
  refine congrArg some ?_
  dsimp only
  omega

end Verdict
