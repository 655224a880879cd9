import Verdict.Pattern.Search

namespace Verdict

/-- The character before a place that is reached by reading a text. -/
def lastRead (before : Option Char) (read : List Char) : Option Char :=
  read.getLast?.or before

theorem lastRead_append (before : Option Char) (xs ys : List Char) :
    lastRead before (xs ++ ys) = lastRead (lastRead before xs) ys := by
  simp [lastRead, List.getLast?_append, Option.or_assoc]

theorem lastRead_eq_none_iff {before : Option Char} {read : List Char} :
    lastRead before read = none ↔ read = [] ∧ before = none := by
  simp [lastRead, Option.or_eq_none_iff]

namespace Pattern

/-- `p.Matches before m after`: the pattern matches the text `m`, which stands between the character
`before` and the text `after`. -/
inductive Matches : Pattern → Option Char → List Char → List Char → Prop
  | empty {before : Option Char} {after : List Char} : Matches empty before [] after
  | one {set : CharSet} {before : Option Char} {c : Char} {after : List Char} :
    set.contains c = true → Matches (one set) before [c] after
  | look {k : Look} {before : Option Char} {after : List Char} :
    k.holds before after.head? = true → Matches (look k) before [] after
  | seq {p q : Pattern} {before : Option Char} {m n after : List Char} :
    Matches p before m (n ++ after) → Matches q (lastRead before m) n after →
    Matches (seq p q) before (m ++ n) after
  | left {p q : Pattern} {before : Option Char} {m after : List Char} :
    Matches p before m after → Matches (alt p q) before m after
  | right {p q : Pattern} {before : Option Char} {m after : List Char} :
    Matches q before m after → Matches (alt p q) before m after
  | stop {most : Option Nat} {greedy : Bool} {p : Pattern} {before : Option Char}
    {after : List Char} : Matches (loop 0 most greedy p) before [] after
  | pass {least : Nat} {most : Option Nat} {greedy : Bool} {p : Pattern} {before : Option Char}
    {m n after : List Char} : least ≠ 0 ∨ most ≠ some 0 → Matches p before m (n ++ after) →
    Matches (loop (least - 1) (most.map (· - 1)) greedy p) (lastRead before m) n after →
    Matches (loop least most greedy p) before (m ++ n) after
  | group {index : Nat} {p : Pattern} {before : Option Char} {m after : List Char} :
    Matches p before m after → Matches (group index p) before m after

section Matches

variable {p q : Pattern} {before : Option Char} {m after : List Char}

theorem matches_one_iff {set : CharSet} :
    (one set).Matches before m after ↔ ∃ c, m = [c] ∧ set.contains c = true := by
  constructor
  · intro h
    cases h with
    | @one _ _ c _ hc => exact ⟨c, rfl, hc⟩
  · rintro ⟨c, rfl, hc⟩
    exact .one hc

theorem matches_look_iff {k : Look} :
    (look k).Matches before m after ↔ m = [] ∧ k.holds before after.head? = true := by
  constructor
  · intro h
    cases h with
    | look hk => exact ⟨rfl, hk⟩
  · rintro ⟨rfl, hk⟩
    exact .look hk

theorem matches_seq_iff : (seq p q).Matches before m after ↔
    ∃ x y, m = x ++ y ∧ p.Matches before x (y ++ after) ∧ q.Matches (lastRead before x) y after := by
  constructor
  · intro h
    cases h with
    | @seq _ _ _ x y _ hp hq => exact ⟨x, y, rfl, hp, hq⟩
  · rintro ⟨x, y, rfl, hp, hq⟩
    exact .seq hp hq

theorem matches_alt_iff :
    (alt p q).Matches before m after ↔ p.Matches before m after ∨ q.Matches before m after := by
  constructor
  · intro h
    cases h with
    | left hp => exact .inl hp
    | right hq => exact .inr hq
  · rintro (hp | hq)
    · exact .left hp
    · exact .right hq

theorem matches_optional_iff {greedy : Bool} :
    (loop 0 (some 1) greedy p).Matches before m after ↔ m = [] ∨ p.Matches before m after := by
  have hnone : ∀ {b n a}, (loop 0 (some 0) greedy p).Matches b n a → n = [] := by
    intro b n a h
    cases h with
    | stop => rfl
    | pass hopen => simp at hopen
  constructor
  · intro h
    cases h with
    | stop => exact .inl rfl
    | pass _ hp hrest =>
      cases hnone hrest
      exact .inr (by simpa using hp)
  · rintro (rfl | hp)
    · exact .stop
    · have hpass : (loop 0 (some 1) greedy p).Matches before (m ++ []) after :=
        .pass (.inr (by simp)) hp .stop
      simpa using hpass

theorem matches_loop_one_iff {set : CharSet} {least : Nat} {greedy : Bool} :
    (loop least none greedy (one set)).Matches before m after ↔
      least ≤ m.length ∧ ∀ c ∈ m, set.contains c = true := by
  constructor
  · intro h
    generalize hp : loop least none greedy (one set) = p at h
    induction h generalizing least with
    | stop => cases hp; simp
    | pass _ hone _ _ ih =>
      cases hp
      obtain ⟨c, rfl, hc⟩ := matches_one_iff.mp hone
      obtain ⟨hlength, hall⟩ := ih rfl
      simp only [List.singleton_append, List.length_cons, List.mem_cons]
      refine ⟨by omega, ?_⟩
      rintro d (rfl | hd)
      · exact hc
      · exact hall d hd
    | _ => cases hp
  · rintro ⟨hlength, hall⟩
    induction m generalizing least before with
    | nil =>
      obtain rfl : least = 0 := Nat.le_zero.mp hlength
      exact .stop
    | cons c m ih =>
      rw [List.length_cons] at hlength
      exact .pass (m := [c]) (.inr nofun) (.one (hall c List.mem_cons_self))
        (ih (by omega) fun d hd => hall d (List.mem_cons_of_mem c hd))

/-- Whether a match can begin with a character. An assertion counts as if it held. -/
def opens : Pattern → Char → Bool
  | empty, _ => false
  | one set, c => set.contains c
  | look _, _ => false
  | seq p q, c => p.opens c || p.nullable && q.opens c
  | alt p q, c => p.opens c || q.opens c
  | loop _ _ _ p, c => p.opens c
  | group _ p, c => p.opens c

theorem Matches.opening (h : p.Matches before m after) :
    (m = [] → p.nullable = true) ∧ ∀ c, m.head? = some c → p.opens c = true := by
  induction h with
  | empty => simp [nullable]
  | one hc => simpa [opens] using hc
  | look => simp [nullable]
  | @seq _ _ _ m n _ _ _ ihp ihq =>
    cases m with
    | nil =>
      refine ⟨fun hn => ?_, fun c hc => ?_⟩
      · simp [nullable, ihp.1 rfl, ihq.1 hn]
      · simp [opens, ihp.1 rfl, ihq.2 c hc]
    | cons d m =>
      refine ⟨nofun, fun c hc => ?_⟩
      simp [opens, ihp.2 c hc]
  | left _ ih =>
    exact ⟨fun hm => by simp [nullable, ih.1 hm], fun c hc => by simp [opens, ih.2 c hc]⟩
  | right _ ih =>
    exact ⟨fun hm => by simp [nullable, ih.1 hm], fun c hc => by simp [opens, ih.2 c hc]⟩
  | stop => simp [nullable]
  | @pass _ _ _ _ _ m n _ _ _ _ ih ihrest =>
    cases m with
    | nil => exact ⟨fun _ => by simp [nullable, ih.1 rfl], ihrest.2⟩
    | cons d m => exact ⟨nofun, ih.2⟩
  | group _ ih => exact ih

/-- A pattern that cannot match nothing matches at no place where it cannot begin. -/
theorem not_matches_of_opens (hp : p.nullable = false)
    (h : ∀ c, after.head? = some c → p.opens c = false) (x y : List Char) (hxy : after = x ++ y) :
    ¬ p.Matches before x y := by
  intro hmatch
  obtain ⟨hnil, hhead⟩ := hmatch.opening
  cases x with
  | nil => simp [hp] at hnil
  | cons c x =>
    have hfalse := h c (by simp [hxy])
    simp [hhead c rfl] at hfalse

end Matches

end Pattern

namespace Spot

/-- The length of the text after a spot is what the spot says. -/
def Counted (s : Spot) : Prop := s.left = s.rest.length

/-- `t` is reached from `s` by reading `m`. -/
structure Reads (s : Spot) (m : List Char) (t : Spot) : Prop where
  rest : s.rest = m ++ t.rest
  before : t.before = lastRead s.before m
  counted : s.Counted → t.Counted

namespace Reads

variable {s t u : Spot} {m n : List Char}

theorem refl (s : Spot) : s.Reads [] s := ⟨rfl, rfl, id⟩

theorem trans (h : s.Reads m t) (h' : t.Reads n u) : s.Reads (m ++ n) u where
  rest := by rw [h.rest, h'.rest, List.append_assoc]
  before := by rw [h'.before, h.before, lastRead_append]
  counted hs := h'.counted (h.counted hs)

theorem next {c : Char} {rest : List Char} (h : s.rest = c :: rest) :
    s.Reads [c] { s with before := some c, rest := rest, left := s.left - 1 } where
  rest := h
  before := rfl
  counted hs := by
    have hlength : s.left = rest.length + 1 := by rw [hs, h, List.length_cons]
    change s.left - 1 = rest.length
    omega

theorem left_eq (h : s.Reads m t) (hs : s.Counted) : s.left = m.length + t.left := by
  rw [hs, h.counted hs, h.rest, List.length_append]

end Reads

end Spot

namespace Pattern

/-- A match of a pattern leads from `s` to `t`. -/
def Leads (p : Pattern) (s t : Spot) : Prop :=
  ∃ m, s.Reads m t ∧ p.Matches s.before m t.rest

section Leads

variable {p q : Pattern} {s t u : Spot} {least : Nat} {most : Option Nat} {greedy : Bool}

theorem Leads.seq (h : p.Leads s t) (h' : q.Leads t u) : (seq p q).Leads s u := by
  obtain ⟨m, hm, hp⟩ := h
  obtain ⟨n, hn, hq⟩ := h'
  exact ⟨m ++ n, hm.trans hn, .seq (hn.rest ▸ hp) (hm.before ▸ hq)⟩

theorem Leads.left (h : p.Leads s t) : (alt p q).Leads s t :=
  h.imp fun _ => And.imp_right .left

theorem Leads.right (h : q.Leads s t) : (alt p q).Leads s t :=
  h.imp fun _ => And.imp_right .right

theorem Leads.stop (s : Spot) : (loop 0 most greedy p).Leads s s :=
  ⟨[], .refl s, .stop⟩

theorem Leads.pass (hopen : least ≠ 0 ∨ most ≠ some 0) (h : p.Leads s t)
    (h' : (loop (least - 1) (most.map (· - 1)) greedy p).Leads t u) :
    (loop least most greedy p).Leads s u := by
  obtain ⟨m, hm, hp⟩ := h
  obtain ⟨n, hn, hq⟩ := h'
  exact ⟨m ++ n, hm.trans hn, .pass hopen (hn.rest ▸ hp) (hm.before ▸ hq)⟩

theorem Leads.close (index : Nat) (h : p.Leads s t) :
    (group index p).Leads s (.close index s t) := by
  obtain ⟨m, hm, hp⟩ := h
  exact ⟨m, ⟨hm.rest, hm.before, hm.counted⟩, .group hp⟩

end Leads

end Pattern

theorem mem_of_mem_distinct {spots : List Spot} {t : Spot} (h : t ∈ distinct spots) :
    t ∈ spots := by
  unfold distinct at h
  split at h
  next => exact h
  next => exact h
  next =>
    refine List.foldlRecOn (motive := fun kept : List Spot × Nat => ∀ u ∈ kept.1, u ∈ spots)
      spots _ (by simp) ?_ t (List.mem_reverse.mp h)
    rintro ⟨kept, seen⟩ hkept s hs
    dsimp only
    split
    next => exact hkept
    next =>
      intro u hu
      rcases List.mem_cons.mp hu with rfl | hu
      · exact hs
      · exact hkept u hu

namespace Sweep

variable {Q : Spot → Prop} {step : Spot → List Spot} {number : Nat → Spot → Nat} {greedy : Bool}
  {w : Sweep} {s : Spot} {spots : List Spot}

/-- All spots that have been found have a property. -/
def All (Q : Spot → Prop) (w : Sweep) : Prop := ∀ t ∈ w.found, Q t

theorem All.report (hw : w.All Q) (hs : Q s) : (w.report s).All Q := by
  intro t ht
  rcases List.mem_cons.mp ht with rfl | ht
  · exact hs
  · exact hw t ht

theorem All.reportAll (hw : w.All Q) (hspots : ∀ t ∈ spots, Q t) : (w.reportAll spots).All Q := by
  unfold Sweep.reportAll
  induction spots generalizing w with
  | nil => exact hw
  | cons t spots ih =>
    exact ih (hw.report (hspots t List.mem_cons_self))
      fun u hu => hspots u (List.mem_cons_of_mem t hu)

theorem All.results (hw : w.All Q) {t : Spot} (ht : t ∈ w.results) : Q t :=
  hw t (List.mem_reverse.mp (mem_of_mem_distinct ht))

/-- What holds at the beginning of a pass, as told by the number of passes that may still be begun,
and is kept by every pass, gives the property of what is found. -/
theorem All.visit {P : Nat → Spot → Prop} (hfound : ∀ n t, P n t → Q t)
    (hstep : ∀ n t u, P (n + 1) t → u ∈ step t → P n u) {passes : Nat} {after : List Spot}
    (hw : w.All Q) (hs : P passes s) (hafter : ∀ t ∈ after, Q t) :
    (w.visit step number greedy passes s after).All Q := by
  induction passes generalizing s after w with
  | zero => exact (hw.report (hfound 0 s hs)).reportAll hafter
  | succ passes ih =>
    rw [Sweep.visit]
    dsimp only
    split
    next => exact hw.reportAll hafter
    next =>
      have hbegun : Sweep.All Q (if greedy then w.begin (number passes s)
          else (w.begin (number passes s)).report s) := by
        split
        next => exact hw
        next => exact All.report hw (hfound _ s hs)
      have hlater : ∀ t ∈ (if greedy then s :: after else after), Q t := by
        intro t ht
        split at ht
        next =>
          rcases List.mem_cons.mp ht with rfl | ht
          · exact hfound _ t hs
          · exact hafter t ht
        next => exact hafter t ht
      have hnext : ∀ t ∈ step s, P passes t := fun t => hstep passes s t hs
      split
      next => exact hbegun.reportAll hlater
      next t ht => exact ih hbegun (hnext t (ht ▸ List.mem_singleton_self t)) hlater
      next =>
        refine All.reportAll ?_ hlater
        exact List.foldlRecOn (motive := All Q) (step s) _ hbegun
          fun w hw t ht => ih hw (hnext t ht) (fun _ h => absurd h List.not_mem_nil)

end Sweep

namespace Pattern

section Loops

variable {p : Pattern} {step : Spot → List Spot} {least : Nat} {most : Option Nat} {greedy : Bool}
  {s t u : Spot} {spots : List Spot} {w : Sweep}

theorem mem_of_mem_andThen (h : t ∈ andThen spots step) : ∃ s ∈ spots, t ∈ step s := by
  unfold andThen at h
  split at h
  next => simp at h
  next s => exact ⟨s, List.mem_singleton_self s, h⟩
  next => exact List.mem_flatMap.mp (mem_of_mem_distinct h)

/-- What is kept by a pass, as told by the number of passes that are left, holds after the last. -/
theorem exactly_keeps {P : Nat → Spot → Prop} (hstep : ∀ n t u, P (n + 1) t → u ∈ step t → P n u)
    {n : Nat} (hspots : ∀ t ∈ spots, P n t) (h : u ∈ exactly step n spots) : P 0 u := by
  induction n generalizing spots with
  | zero => exact hspots u h
  | succ n ih =>
    refine ih (fun v hv => ?_) h
    obtain ⟨t, ht, hv⟩ := mem_of_mem_andThen hv
    exact hstep n t v (hspots t ht) hv

-- The invariant of a spot in a loop is that whatever the passes still to come lead to is an end of the
-- whole loop. So no pass has to be added to the end of a match, where `Matches.pass` has it in front.

theorem all_visitMany {Q : Spot → Prop} (hp : ∀ t u, u ∈ step t → p.Leads t u) (hw : w.All Q)
    (ht : ∀ u, (loop 0 none greedy p).Leads t u → Q u) : (visitMany step greedy t w).All Q := by
  refine hw.visit (P := fun _ t => ∀ u, (loop 0 none greedy p).Leads t u → Q u)
    (fun _ t h => h t (.stop t)) ?_ ht (by simp)
  intro _ t u h hu v hv
  exact h v (.pass (.inr nofun) (hp t u (List.mem_filter.mp hu).1) hv)

theorem leads_of_mem_many (hp : ∀ t u, u ∈ step t → p.Leads t u) (h : u ∈ many step greedy s) :
    (loop 0 none greedy p).Leads s u :=
  (all_visitMany hp (fun _ h => absurd h List.not_mem_nil) fun _ => id).results h

theorem leads_of_mem_someOf (hp : ∀ t u, u ∈ step t → p.Leads t u)
    (h : u ∈ someOf step greedy s) : ∃ t, p.Leads s t ∧ (loop 0 none greedy p).Leads t u := by
  refine Sweep.All.results (Q := fun u => ∃ t, p.Leads s t ∧ (loop 0 none greedy p).Leads t u)
    (List.foldlRecOn (motive := Sweep.All _) (step s) _ (fun _ h => absurd h List.not_mem_nil) ?_) h
  intro w hw t ht
  split
  next => exact all_visitMany hp hw fun u hu => ⟨t, hp s t ht, hu⟩
  next => exact hw.report ⟨t, hp s t ht, .stop t⟩

theorem leads_of_mem_atMost {n : Nat} (hp : ∀ t u, u ∈ step t → p.Leads t u)
    (h : u ∈ atMost step greedy n s) : (loop 0 (some n) greedy p).Leads s u := by
  have hall : (Sweep.empty.visit step (fun passes t => passes * (s.left + 1) + t.left) greedy n s
      []).All fun u => (loop 0 (some n) greedy p).Leads s u := by
    refine Sweep.All.visit (P := fun n' t => ∀ u, (loop 0 (some n') greedy p).Leads t u →
      (loop 0 (some n) greedy p).Leads s u) (fun _ t h => h t (.stop t)) ?_
      (fun _ h => absurd h List.not_mem_nil) (fun _ => id) (by simp)
    intro n' t u h hu v hv
    exact h v (.pass (.inr (by simp)) (hp t u hu) hv)
  exact hall.results h

theorem leads_of_mem_exactly (hp : ∀ t u, u ∈ step t → p.Leads t u) {n : Nat} (hn : n ≤ least)
    (h : t ∈ exactly step n [s])
    (ht : (loop (least - n) (most.map (· - n)) greedy p).Leads t u) :
    (loop least most greedy p).Leads s u := by
  refine (exactly_keeps (P := fun k t => k ≤ n ∧ ∀ u,
    (loop (least - (n - k)) (most.map (· - (n - k))) greedy p).Leads t u →
      (loop least most greedy p).Leads s u) ?_ ?_ h).2 u (by simpa using ht)
  · rintro k t u ⟨hk, h⟩ hu
    refine ⟨by omega, fun v hv => h v (.pass (.inl (by omega)) (hp t u hu) ?_)⟩
    have hleast : least - (n - (k + 1)) - 1 = least - (n - k) := by omega
    have hmost : (most.map (· - (n - (k + 1)))).map (· - 1) = most.map (· - (n - k)) := by
      rw [Option.map_map]
      congr 1
      funext b
      simp only [Function.comp]
      omega
    rwa [hleast, hmost]
  · intro t ht
    cases List.mem_singleton.mp ht
    simp

theorem leads_of_mem_loopEnds (hp : ∀ t u, u ∈ step t → p.Leads t u) {nullable : Bool}
    (h : u ∈ loopEnds step nullable least most greedy s) :
    (loop least most greedy p).Leads s u := by
  unfold loopEnds at h
  split at h
  next =>
    obtain ⟨t, ht, hu⟩ := mem_of_mem_andThen h
    refine leads_of_mem_exactly hp (Nat.le_refl _) ht ?_
    simpa using leads_of_mem_atMost hp hu
  next =>
    have hsome : ∀ u, u ∈ someOf step greedy s → (loop 0 none greedy p).Leads s u := by
      intro u hu
      obtain ⟨t, ht, hu⟩ := leads_of_mem_someOf hp hu
      exact .pass (.inr nofun) ht hu
    split at h
    next =>
      have hends : u = s ∨ u ∈ someOf step greedy s := by
        split at h <;> simpa [or_comm] using mem_of_mem_distinct h
      rcases hends with rfl | hu
      · exact .stop u
      · exact hsome u hu
    next => exact leads_of_mem_many hp h
  next least =>
    obtain ⟨t, ht, hu⟩ := mem_of_mem_andThen h
    obtain ⟨v, hv, hu⟩ := leads_of_mem_someOf hp hu
    refine leads_of_mem_exactly hp (Nat.le_succ least) ht ?_
    have hone : least + 1 - least = 1 := by omega
    rw [hone]
    exact .pass (.inl Nat.one_ne_zero) hv hu

end Loops

/-- The matcher finds nothing but ends of matches. -/
theorem leads_of_mem_ends {p : Pattern} {s t : Spot} (h : t ∈ p.ends s) : p.Leads s t := by
  induction p generalizing s t with
  | empty =>
    cases List.mem_singleton.mp h
    exact ⟨[], .refl s, .empty⟩
  | one set =>
    unfold ends at h
    split at h
    next => simp at h
    next c rest hrest =>
      split at h
      next hc =>
        cases List.mem_singleton.mp h
        exact ⟨[c], .next hrest, .one hc⟩
      next => simp at h
  | look k =>
    unfold ends at h
    split at h
    next hk =>
      cases List.mem_singleton.mp h
      exact ⟨[], .refl s, .look hk⟩
    next => simp at h
  | seq p q ihp ihq =>
    obtain ⟨u, hu, ht⟩ := mem_of_mem_andThen h
    exact (ihp hu).seq (ihq ht)
  | alt p q ihp ihq =>
    rcases List.mem_append.mp (mem_of_mem_distinct h) with hp | hq
    · exact (ihp hp).left
    · exact (ihq hq).right
  | loop least most greedy p ih => exact leads_of_mem_loopEnds (fun _ _ => ih) h
  | group index p ih =>
    obtain ⟨u, hu, rfl⟩ := List.mem_map.mp h
    exact (ih hu).close index

/-- A match that a search finds begins at the spot where it is searched from, or later. -/
theorem find?_leads {p : Pattern} {spot start stop : Spot}
    (h : p.find? spot = some (start, stop)) :
    ∃ gap, spot.Reads gap start ∧ p.Leads start stop := by
  unfold find? at h
  generalize hs : spot.rest = s at h
  induction s generalizing spot with
  | nil =>
    obtain ⟨_, hstop, heq⟩ := Option.map_eq_some_iff.mp h
    cases heq
    exact ⟨[], .refl _, leads_of_mem_ends (List.mem_of_mem_head? hstop)⟩
  | cons c s ih =>
    unfold findFrom at h
    split at h
    next stop' hstop =>
      cases h
      exact ⟨[], .refl _, leads_of_mem_ends (List.mem_of_mem_head? hstop)⟩
    next =>
      split at h
      next => cases h
      next =>
        obtain ⟨gap, hgap, hleads⟩ := ih rfl h
        exact ⟨c :: gap, (Spot.Reads.next hs).trans hgap, hleads⟩

end Pattern

/-- The length that a search gives is that of a text in front of the match and of the match. -/
theorem Regex.matchEnd?_eq_some {re : Regex} {s : List Char} {n : Nat}
    (h : re.matchEnd? s s.length = some n) : ∃ gap m after, s = gap ++ m ++ after ∧
      n = (gap ++ m).length ∧ re.pattern.Matches (lastRead none gap) m after := by
  obtain ⟨⟨start, stop⟩, hfind, hn⟩ := Option.map_eq_some_iff.mp h
  obtain ⟨gap, hgap, m, hm, hmatch⟩ := Pattern.find?_leads hfind
  have hreads := hgap.trans hm
  have hleft := hreads.left_eq rfl
  refine ⟨gap, m, stop.rest, hreads.rest, ?_, ?_⟩
  · change s.length = _ at hleft
    dsimp only at hn
    omega
  · have hbefore : start.before = lastRead none gap := hgap.before
    rwa [← hbefore]

end Verdict
