import Verdict.Pattern.Reader
import Verdict.Proofs.Pattern.Bracket

namespace Verdict

theorem PatternFlags.read_follows {f : PatternFlags} {negated : Bool} {seen s s' : List Char}
    (h : Closed s s') {flags : PatternFlags} {letters rest : List Char}
    (hread : f.read negated seen s = .ok (flags, letters, rest)) :
    ∃ rest', f.read negated seen s' = .ok (flags, letters, rest') ∧ Closed rest rest' := by
  induction s generalizing f negated seen s' with
  | nil => cases hread
  | cons c s ih =>
    obtain ⟨t, rfl, ht⟩ := h.of_cons
    unfold PatternFlags.read at hread ⊢
    split at hread
    next hend =>
      rw [if_pos hend]
      split at hread
      next => cases hread
      next hlast =>
        cases hread
        exact ⟨c :: t, if_neg hlast, h⟩
    next hend =>
      rw [if_neg hend]
      split at hread
      next => cases hread
      next hnew =>
        rw [if_neg hnew]
        split at hread
        next hminus =>
          rw [if_pos hminus]
          exact ih ht hread
        next hminus =>
          rw [if_neg hminus]
          split at hread
          next => exact ih ht hread
          next => cases hread

namespace PatternReader

variable {f : PatternFlags} {r r' : PatternReader} {base : OpenGroup} {s s' : List Char} {c : Char}

theorem takeLazy_closed (h : Closed s s') :
    (takeLazy s').1 = (takeLazy s).1 ∧ Closed (takeLazy s).2 (takeLazy s').2 := by
  rcases h.lead (c := '?') (by decide) with ⟨t, t', rfl, rfl, ht⟩ | ⟨hs, hs'⟩
  · exact ⟨rfl, ht⟩
  · simp only [takeLazy]
    exact ⟨trivial, h⟩

theorem takeDigits_closed {fuel fuel' : Nat} (hfuel : s.length ≤ fuel) (hfuel' : s'.length ≤ fuel')
    (n : Nat) (found : Bool) (h : Closed s s') :
    (takeDigits f fuel' n found s').1 = (takeDigits f fuel n found s).1 ∧
      Closed (takeDigits f fuel n found s).2 (takeDigits f fuel' n found s').2 := by
  induction fuel generalizing fuel' n found s s' with
  | zero =>
    obtain rfl : s = [] := List.length_eq_zero_iff.mp (by omega)
    rcases h.of_nil with rfl | rfl <;> cases fuel' <;> exact ⟨rfl, h⟩
  | succ fuel ih =>
    cases s with
    | nil => rcases h.of_nil with rfl | rfl <;> cases fuel' <;> exact ⟨rfl, h⟩
    | cons c s =>
      obtain ⟨t, rfl, ht⟩ := h.of_cons
      rw [List.length_cons] at hfuel hfuel'
      obtain ⟨fuel', rfl⟩ : ∃ k, fuel' = k + 1 := ⟨fuel' - 1, by omega⟩
      simp only [takeDigits]
      split
      next =>
        have hs := f.length_skip_le s
        have ht' := f.length_skip_le t
        exact ih (by omega) (by omega) _ _ (ht.skip f)
      next => exact ⟨rfl, h⟩

theorem readCount_follows (h : Closed s s') :
    Follows id (readCount f s) (readCount f s') := by
  have hs := h.dropWhile isBlank (by decide)
  obtain ⟨hcount, hrest⟩ := takeDigits_closed (f := f) (Nat.le_refl _) (Nat.le_refl _) 0 false hs
  have hskipped := (hrest.dropWhile isBlank (by decide)).skip f
  unfold readCount
  dsimp only
  generalize takeDigits f (s.dropWhile isBlank).length 0 false (s.dropWhile isBlank) = found
    at hcount hskipped ⊢
  generalize takeDigits f (s'.dropWhile isBlank).length 0 false (s'.dropWhile isBlank) = found'
    at hcount hskipped ⊢
  obtain ⟨count, rest⟩ := found
  obtain ⟨count', rest'⟩ := found'
  obtain rfl : count' = count := hcount
  cases count' with
  | none => exact .ok hskipped
  | some n =>
    dsimp only
    split
    next => exact .ok hskipped
    next => exact .error

theorem readBounds_closed {least : Nat} {most : Option Nat} {rest : List Char} (h : Closed s s')
    (hread : readBounds f s = .ok (least, most, rest)) :
    ∃ rest', readBounds f s' = .ok (least, most, rest') ∧ Closed rest rest' := by
  unfold readBounds at hread ⊢
  obtain ⟨⟨count, t⟩, hcount, hread⟩ := bind_eq_ok_iff.mp hread
  obtain ⟨t', hcount', ht⟩ := readCount_follows (h.skip f) count t hcount
  simp only [hcount', bind, Except.bind, id] at hread ⊢
  cases count with
  | none => cases hread
  | some count =>
    rcases ht.lead (c := ',') (by decide) with ⟨u, u', rfl, rfl, hu⟩ | ⟨hcomma, hcomma'⟩
    · simp only at hread ⊢
      rcases (hu.skip f).lead (c := '\x7d') (by decide) with
        ⟨v, v', hv, hv', hclosed⟩ | ⟨hbrace, hbrace'⟩
      · rw [hv] at hread
        rw [hv']
        cases hread
        exact ⟨v', rfl, hclosed⟩
      · simp only at hread ⊢
        obtain ⟨⟨count, v⟩, hcount, hread⟩ := bind_eq_ok_iff.mp hread
        obtain ⟨v', hcount', hv⟩ := readCount_follows (hu.skip f) count v hcount
        simp only [hcount', id]
        split at hread
        next n v heq =>
          cases heq
          obtain ⟨w, rfl, hw⟩ := hv.of_cons
          split at hread
          next hle =>
            cases hread
            exact ⟨w, if_pos hle, hw⟩
          next => cases hread
        next => cases hread
    · split at hread
      next heq => exact absurd (congrArg Prod.snd heq) (hcomma _)
      next n v heq =>
        cases heq
        obtain ⟨w, rfl, hw⟩ := ht.of_cons
        cases hread
        exact ⟨w, rfl, hw⟩
      next => cases hread

theorem readName_follows (h : Closed s s') : Follows id (readName s) (readName s') := by
  have hspan := h.span (· != '>') (by decide)
  unfold readName
  generalize s.span (· != '>') = found at hspan ⊢
  generalize s'.span (· != '>') = found' at hspan ⊢
  obtain ⟨name, rest⟩ := found
  obtain ⟨name', rest'⟩ := found'
  dsimp only at hspan
  rcases hspan with ⟨rfl, hrest⟩ | ⟨rfl, rfl⟩
  · cases name' with
    | nil => exact .error
    | cons c name =>
      cases rest with
      | nil => exact .error
      | cons d rest =>
        obtain ⟨t, rfl, ht⟩ := hrest.of_cons
        dsimp only
        split
        next => exact .ok ht
        next => exact .error
  · cases name <;> exact .error

/-- The reader with one more group around all that are open. -/
def within (base : OpenGroup) (r : PatternReader) : PatternReader :=
  { r with around := r.around ++ [base] }

@[simp] theorem flags_within : (r.within base).flags = r.flags := rfl

@[simp] theorem inner_within : (r.within base).inner = r.inner := rfl

@[simp] theorem names_within : (r.within base).names = r.names := rfl

theorem closeGroup_within (h : r.closeGroup = .ok r') :
    (r.within base).closeGroup = .ok (r'.within base) := by
  obtain ⟨inner, around, flags, nextIndex, names⟩ := r
  cases around with
  | nil => cases h
  | cons parent around =>
    cases h
    rfl

theorem repeatLast_within {least : Nat} {most : Option Nat} {greedy : Bool}
    (h : r.repeatLast least most greedy = .ok r') :
    (r.within base).repeatLast least most greedy = .ok (r'.within base) := by
  unfold repeatLast at h ⊢
  rw [inner_within]
  split at h
  next => cases h
  next part parts hparts =>
    split at h
    next => cases h
    next hrepeatable =>
      rw [if_neg hrepeatable]
      cases h
      rfl

theorem openNamed_follows (base : OpenGroup) (r : PatternReader) (h : Closed s s') :
    Follows (within base) (r.openNamed s) ((r.within base).openNamed s') := by
  refine (readName_follows h).bind ?_
  intro name rest rest' hrest
  rw [names_within]
  dsimp only [id]
  by_cases htaken : (r.names.any fun entry => entry.1 == name) = true
  · rw [if_pos htaken]
    exact .error
  · rw [if_neg htaken, if_neg htaken]
    exact .ok hrest

theorem readFlags_eq_openGroup {flags : PatternFlags} {letters rest : List Char}
    (hread : r.flags.read false [] s = .ok (flags, letters, c :: rest)) (hc : c ≠ ')') :
    r.readFlags s = .ok (r.openGroup none flags, rest) := by
  unfold readFlags
  rw [hread]
  simp only [bind, Except.bind]
  split
  next heq => simp_all
  next heq => simp_all
  next heq =>
    cases heq
    rfl
  next heq => cases heq

theorem readFlags_follows (base : OpenGroup) (r : PatternReader) (h : Closed s s') :
    Follows (within base) (r.readFlags s) ((r.within base).readFlags s') := by
  cases hflags : r.flags.read false [] s with
  | error e =>
    unfold readFlags
    rw [hflags]
    exact .error
  | ok found =>
    obtain ⟨flags, letters, rest⟩ := found
    obtain ⟨rest', hflags', hrest⟩ := PatternFlags.read_follows h hflags
    cases rest with
    | nil =>
      unfold readFlags
      rw [hflags]
      cases letters <;> exact .error
    | cons c rest =>
      obtain ⟨t, rfl, ht⟩ := hrest.of_cons
      by_cases hc : c = ')'
      · subst c
        unfold readFlags
        rw [flags_within, hflags, hflags']
        cases letters with
        | nil => exact .error
        | cons letter letters => exact .ok ht
      · rw [readFlags_eq_openGroup hflags hc,
          readFlags_eq_openGroup (r := r.within base) hflags' hc]
        exact .ok ht

theorem readOpening_eq_openGroup (hs : r.flags.skip s = s') (hquestion : ∀ u, s' ≠ '?' :: u) :
    r.readOpening s = .ok (r.openGroup (some r.nextIndex) r.flags, s') := by
  unfold readOpening
  rw [hs]
  split <;> first | rfl | exact absurd rfl (hquestion _)

theorem readOpening_eq_readFlags (hs : r.flags.skip s = '?' :: s') (hlook : ∀ u, s' ≠ '=' :: u)
    (hnot : ∀ u, s' ≠ '!' :: u) (hangle : ∀ u, s' ≠ '<' :: u) (hname : ∀ u, s' ≠ 'P' :: '<' :: u) :
    r.readOpening s = if s'.isEmpty then .error .unclosedGroup else r.readFlags s' := by
  unfold readOpening
  rw [hs]
  split
  next heq => exact absurd (List.cons.inj heq).2 (hlook _)
  next heq => exact absurd (List.cons.inj heq).2 (hnot _)
  next heq => exact absurd (List.cons.inj heq).2 (hangle _)
  next heq => exact absurd (List.cons.inj heq).2 (hangle _)
  next heq => exact absurd (List.cons.inj heq).2 (hname _)
  next heq => exact absurd (List.cons.inj heq).2 (hangle _)
  next heq => rw [(List.cons.inj heq).2]
  next hother => exact absurd rfl (hother _)

theorem readOpening_follows (base : OpenGroup) (r : PatternReader) (h : Closed s s') :
    Follows (within base) (r.readOpening s) ((r.within base).readOpening s') := by
  have hskipped := h.skip r.flags
  rcases hskipped.lead (c := '?') (by decide) with ⟨u, u', hs, hs', hu⟩ | ⟨hs, hs'⟩
  · rcases hu.lead (c := '=') (by decide) with ⟨v, v', rfl, rfl, hv⟩ | ⟨hlook, hlook'⟩
    · simp only [readOpening, hs]
      exact .error
    rcases hu.lead (c := '!') (by decide) with ⟨v, v', rfl, rfl, hv⟩ | ⟨hnot, hnot'⟩
    · simp only [readOpening, hs]
      exact .error
    rcases hu.lead (c := '<') (by decide) with ⟨v, v', rfl, rfl, hv⟩ | ⟨hangle, hangle'⟩
    · rcases hv.lead (c := '=') (by decide) with ⟨w, w', rfl, rfl, hw⟩ | ⟨hbehind, hbehind'⟩
      · simp only [readOpening, hs]
        exact .error
      rcases hv.lead (c := '!') (by decide) with ⟨w, w', rfl, rfl, hw⟩ | ⟨hnever, hnever'⟩
      · simp only [readOpening, hs]
        exact .error
      simp only [readOpening, flags_within, hs, hs']
      exact openNamed_follows base r hv
    by_cases hname : ∃ v, u = 'P' :: '<' :: v
    · obtain ⟨v, rfl⟩ := hname
      obtain ⟨v', rfl, hv⟩ := hu.of_cons
      obtain ⟨w', rfl, hw⟩ := hv.of_cons
      simp only [readOpening, flags_within, hs, hs']
      exact openNamed_follows base r hw
    · have hname' : ∀ v, u' ≠ 'P' :: '<' :: v := by
        rintro v rfl
        rcases hu.lead (c := 'P') (by decide) with ⟨t, t', rfl, ht', ht⟩ | ⟨_, hother⟩
        · cases ht'
          rcases ht.lead (c := '<') (by decide) with ⟨w, _, rfl, _⟩ | ⟨_, hother⟩
          · exact hname ⟨w, rfl⟩
          · exact hother v rfl
        · exact hother _ rfl
      rw [readOpening_eq_readFlags hs hlook hnot hangle fun v hv => hname ⟨v, hv⟩,
        readOpening_eq_readFlags (r := r.within base) hs' hlook' hnot' hangle' hname']
      cases u with
      | nil => exact .error
      | cons d u =>
        obtain ⟨t, rfl, _⟩ := hu.of_cons
        exact readFlags_follows base r hu
  · rw [readOpening_eq_openGroup rfl hs, readOpening_eq_openGroup (r := r.within base) rfl hs']
    exact .ok hskipped

theorem follows_of_within {x x' : Except PatternError PatternReader}
    (hx : ∀ r, x = .ok r → x' = .ok (r.within base)) (h : Closed s s') :
    Follows (within base) (x >>= fun r => .ok (r, s)) (x' >>= fun r => .ok (r, s')) := by
  cases x with
  | error e => exact .error
  | ok r =>
    rw [hx r rfl]
    exact .ok h

theorem loop_follows (base : OpenGroup) (r : PatternReader) (least : Nat) (most : Option Nat)
    (h : Closed s s') :
    let looped (r : PatternReader) (s : List Char) : Except PatternError (PatternReader × List Char) :=
      let (greedy, rest) := takeLazy s
      (r.repeatLast least most greedy).bind fun r => .ok (r, rest)
    Follows (within base) (looped r s) (looped (r.within base) s') := by
  obtain ⟨hgreedy, hrest⟩ := takeLazy_closed h
  dsimp only
  rw [hgreedy]
  exact follows_of_within (fun _ => repeatLast_within) hrest

/-- A step does the same inside one more group, and leaves the parenthesis that closes it. -/
theorem step_follows (base : OpenGroup) (r : PatternReader) (c : Char) (h : Closed s s') :
    Follows (within base) (r.step c s) ((r.within base).step c s') := by
  unfold step
  dsimp only
  split
  next => exact readOpening_follows base r h
  next => exact follows_of_within (fun _ => closeGroup_within) h
  next => exact .ok h
  next =>
    refine (ClassItem.read_follows h).bind ?_
    intro item rest rest' hrest
    exact .ok hrest
  next => exact loop_follows base r 0 (some 1) h
  next => exact loop_follows base r 0 none h
  next => exact loop_follows base r 1 none h
  next =>
    rw [flags_within]
    cases hbounds : readBounds r.flags s with
    | error e => exact .error
    | ok found =>
      obtain ⟨least, most, rest⟩ := found
      obtain ⟨rest', hbounds', hrest⟩ := readBounds_closed h hbounds
      obtain ⟨hgreedy, hafter⟩ := takeLazy_closed (hrest.skip r.flags)
      rw [hbounds']
      simp only [bind, Except.bind, hgreedy]
      exact follows_of_within (fun _ => repeatLast_within) hafter
  next =>
    refine (Escape.read_follows h).bind ?_
    intro escape rest rest' hrest
    exact .bind_same fun _ => .ok hrest
  next => exact .bind_same fun _ => .ok h
  next => exact .ok h
  next => exact .ok h
  next => exact .ok h

/-- The outermost group that is open. -/
def outermost (r : PatternReader) : OpenGroup := r.around.getLast?.getD r.inner

/-- The outermost group has the number that it has in `r`. -/
def SameNumber (r r' : PatternReader) : Prop := r'.outermost.index = r.outermost.index

theorem sameNumber_of_around (hinner : r'.inner.index = r.inner.index)
    (haround : r'.around = r.around) : r.SameNumber r' := by
  unfold SameNumber outermost
  rw [haround]
  cases r.around.getLast? with
  | none => exact hinner
  | some g => rfl

theorem sameNumber_openGroup (r : PatternReader) (index : Option Nat) (flags : PatternFlags) :
    r.SameNumber (r.openGroup index flags) := by
  simp [SameNumber, outermost, openGroup, List.getLast?_cons]

theorem sameNumber_closeGroup (h : r.closeGroup = .ok r') : r.SameNumber r' := by
  obtain ⟨inner, around, flags, nextIndex, names⟩ := r
  cases around with
  | nil => cases h
  | cons parent around =>
    cases h
    simp only [SameNumber, outermost, List.getLast?_cons, Option.getD_some]
    cases around.getLast? <;> rfl

theorem sameNumber_repeatLast {least : Nat} {most : Option Nat} {greedy : Bool}
    (h : r.repeatLast least most greedy = .ok r') : r.SameNumber r' := by
  unfold repeatLast at h
  split at h
  next => cases h
  next =>
    split at h
    next => cases h
    next =>
      cases h
      exact sameNumber_of_around rfl rfl

theorem sameNumber_loop {least : Nat} {most : Option Nat} {rest : List Char}
    (h : (r.repeatLast least most (takeLazy s).1).map (·, (takeLazy s).2) = .ok (r', rest)) :
    r.SameNumber r' := by
  obtain ⟨looped, hlooped, h⟩ := bind_eq_ok_iff (k := fun r => .ok (r, (takeLazy s).2)).mp h
  cases h
  exact sameNumber_repeatLast hlooped

theorem sameNumber_readFlags {rest : List Char} (h : r.readFlags s = .ok (r', rest)) :
    r.SameNumber r' := by
  obtain ⟨⟨flags, letters, after⟩, _, h⟩ := bind_eq_ok_iff.mp h
  split at h
  next => cases h
  next =>
    cases h
    exact sameNumber_of_around rfl rfl
  next =>
    cases h
    exact sameNumber_openGroup r none _
  next => cases h

theorem sameNumber_openNamed {rest : List Char} (h : r.openNamed s = .ok (r', rest)) :
    r.SameNumber r' := by
  obtain ⟨⟨name, after⟩, _, h⟩ := bind_eq_ok_iff.mp h
  dsimp only at h
  split at h
  next => cases h
  next =>
    cases h
    exact sameNumber_openGroup { r with names := (name, r.nextIndex) :: r.names } _ _

theorem sameNumber_readOpening {rest : List Char} (h : r.readOpening s = .ok (r', rest)) :
    r.SameNumber r' := by
  unfold readOpening at h
  split at h
  next => cases h
  next => cases h
  next => cases h
  next => cases h
  next => exact sameNumber_openNamed h
  next => exact sameNumber_openNamed h
  next =>
    split at h
    next => cases h
    next => exact sameNumber_readFlags h
  next =>
    cases h
    exact sameNumber_openGroup r _ _

/-- A step opens and closes groups inside the outermost one, which keeps its number. -/
theorem sameNumber_step {rest : List Char} (h : r.step c s = .ok (r', rest)) :
    r.SameNumber r' := by
  have hpush : ∀ part, r.SameNumber (r.push part) := fun _ => sameNumber_of_around rfl rfl
  unfold step at h
  dsimp only at h
  split at h
  next => exact sameNumber_readOpening h
  next =>
    obtain ⟨closed, hclosed, h⟩ := bind_eq_ok_iff.mp h
    cases h
    exact sameNumber_closeGroup hclosed
  next =>
    cases h
    exact sameNumber_of_around rfl rfl
  next =>
    obtain ⟨item, _, h⟩ := bind_eq_ok_iff.mp h
    cases h
    exact hpush _
  next => exact sameNumber_loop h
  next => exact sameNumber_loop h
  next => exact sameNumber_loop h
  next =>
    obtain ⟨⟨least, most, after⟩, _, h⟩ := bind_eq_ok_iff.mp h
    obtain ⟨looped, hlooped, h⟩ := bind_eq_ok_iff.mp h
    cases h
    exact sameNumber_repeatLast hlooped
  next =>
    obtain ⟨⟨escape, after⟩, _, h⟩ := bind_eq_ok_iff.mp h
    obtain ⟨part, _, h⟩ := bind_eq_ok_iff.mp h
    cases h
    exact hpush part
  next =>
    obtain ⟨set, _, h⟩ := bind_eq_ok_iff.mp h
    cases h
    exact hpush _
  next =>
    cases h
    exact hpush _
  next =>
    cases h
    exact hpush _
  next =>
    cases h
    exact hpush _

theorem pattern_of_finish {re : Regex} (h : r.finish = .ok re) :
    r.around = [] ∧ re.pattern = r.inner.body.pattern := by
  unfold finish at h
  split at h
  next => cases h
  next haround =>
    dsimp only at h
    split at h
    next => cases h
    next =>
      split at h
      next => cases h
      next =>
        cases h
        exact ⟨by simpa using haround, rfl⟩

theorem pattern_of_run_nil {fuel : Nat} {re : Regex} (h : run fuel r [] = .ok re) :
    re.pattern = r.inner.body.pattern := by
  cases fuel with
  | zero => cases h
  | succ fuel =>
    have hskip : r.flags.skip [] = [] := by
      unfold PatternFlags.skip
      split <;> rfl
    unfold run at h
    rw [hskip] at h
    exact (pattern_of_finish h).2

/-- What is read inside one more group becomes one part of this group, after those that it has. -/
theorem run_within {re re' : Regex} {fuel fuel' : Nat} (h : Closed s s')
    (hnumber : r.outermost.index = none)
    (hrun : run fuel r s = .ok re) (hrun' : run fuel' (r.within base) s' = .ok re') :
    ∃ part : PatternPart, part.pattern = re.pattern ∧
      re'.pattern = (base.push part).body.pattern := by
  induction fuel generalizing fuel' r s s' with
  | zero => cases hrun
  | succ fuel ih =>
    cases fuel' with
    | zero => cases hrun'
    | succ fuel' =>
      have hskipped := h.skip r.flags
      unfold run at hrun hrun'
      rw [flags_within] at hrun'
      cases hs : r.flags.skip s with
      | nil =>
        rw [hs] at hrun hskipped
        obtain ⟨haround, hpattern⟩ := pattern_of_finish hrun
        -- Either the parenthesis is left and closes the outermost group, or a comment has hidden it
        -- and `base` stays open, which is an error.
        rcases hskipped.of_nil with hs' | hs'
        · rw [hs'] at hrun'
          obtain ⟨inner, around, flags, nextIndex, names⟩ := r
          obtain rfl : around = [] := haround
          have hindex : inner.index = none := hnumber
          have hpart : inner.toPart.pattern = re.pattern := by
            simp [OpenGroup.toPart, hindex, hpattern]
          exact ⟨inner.toPart, hpart, pattern_of_run_nil hrun'⟩
        · rw [hs'] at hrun'
          have hopen : r.around ++ [base] = [] := (pattern_of_finish hrun').1
          simp at hopen
      | cons c t =>
        rw [hs] at hrun hskipped
        obtain ⟨t', hs', ht⟩ := hskipped.of_cons
        rw [hs'] at hrun'
        obtain ⟨⟨next, rest⟩, hstep, hrun⟩ := bind_eq_ok_iff.mp hrun
        obtain ⟨rest', hstep', hrest⟩ := step_follows base r c ht next rest hstep
        simp only [hstep'] at hrun'
        exact ih hrest ((sameNumber_step hstep).trans hnumber) hrun hrun'

end PatternReader

/-- A pattern that is one by itself is read as the same pattern in a group after an anchor. Any
other text may close the group and go on after it. -/
theorem Regex.pattern_of_enclosed {s : List Char} {re re' : Regex}
    (h : Regex.read {} s = .ok re)
    (h' : Regex.read {} ("\\A(?:".toList ++ s ++ [')']) = .ok re') :
    re'.pattern = .seq (.look .textStart) re.pattern := by
  let anchor : OpenGroup := { outer := {}, parts := [{ pattern := .look .textStart }] }
  let start : PatternReader :=
    { inner := { outer := {} }, around := [], flags := {}, nextIndex := 1, names := [] }
  have hlength : ("\\A(?:".toList ++ s ++ [')']).length + 1 = s.length + 7 := by simp
  have hinside : PatternReader.run (s.length + 5) (start.within anchor) (s ++ [')']) = .ok re' := by
    unfold Regex.read at h'
    rw [hlength] at h'
    exact h'
  obtain ⟨part, hpart, hpattern⟩ := PatternReader.run_within (.snoc s) rfl h hinside
  rw [hpattern, ← hpart]
  rfl

end Verdict
