import Verdict.Call.Functions
import Verdict.Proofs.Operands.Evaluation

namespace Verdict

variable {depth : Nat} {t c : Token} {ts us rest g g' : List Token} {term : Term}

/-- Some tokens split into the parts of a rule. -/
def WellFormed (depth : Nat) (ts : List Token) : Prop :=
  ∃ pieces, Splits depth ts pieces

/-- The tokens of a rule up to a place where a new part may start, which is no method call. -/
def Done (depth : Nat) (ts : List Token) : Prop :=
  ∀ rest, callFollows rest = false → WellFormed depth rest → WellFormed depth (ts ++ rest)

/-- The tokens of a rule up to a place where any new part may start. -/
def Free (depth : Nat) (ts : List Token) : Prop :=
  ∀ rest, WellFormed depth rest → WellFormed depth (ts ++ rest)

theorem Gap.append (hg : Gap g) (hg' : Gap g') : Gap (g ++ g') := by
  intro t ht
  rcases List.mem_append.mp ht with h | h
  · exact hg t h
  · exact hg' t h

theorem Gap.snoc (hg : Gap g) (ht : t.isTrivia = true) : Gap (g ++ [t]) :=
  hg.append (by simpa [Gap] using ht)

theorem callFollows_gap_append (hg : Gap g) : callFollows (g ++ rest) = callFollows rest := by
  induction g with
  | nil => rfl
  | cons t g ih =>
    have ht := hg t (by simp)
    rw [← ih (fun u hu => hg u (by simp [hu]))]
    simp [callFollows, ht]

theorem callFollows_cons (ht : t.isTrivia = false) :
    callFollows (t :: rest) = (t.kind == .method) := by
  simp [callFollows, ht]

theorem Spells.exists_first (h : Spells depth ts (.value term)) :
    ∃ first rest, ts = first :: rest ∧ first.kind.startsValue = true := by
  generalize hp : Phrase.value term = phrase at h
  induction h generalizing term with
  | @atom _ t hg => exact ⟨t, [], rfl, TokenKind.startsValue_of_group hg⟩
  | @array _ t ts _ ht => exact ⟨t, ts, rfl, by simp [TokenKind.startsValue, ht]⟩
  | @function _ t ts _ ht => exact ⟨t, ts, rfl, by simp [TokenKind.startsValue, ht]⟩
  | @method _ t us g ts _ _ _ _ _ _ ih =>
    obtain ⟨first, rest, rfl, hfirst⟩ := ih rfl
    exact ⟨first, rest ++ g ++ t :: ts, by simp, hfirst⟩
  | _ => cases hp

theorem Splits.spells_of_mem {depth : Nat} {ts : List Token} {pieces : List Piece} {first : Token}
    {term : Term} (h : Splits depth ts pieces) (hm : .value first term ∈ pieces) :
    ∃ us, Spells depth us (.value term) ∧ ∀ t ∈ us, t ∈ ts := by
  induction h with
  | nil => cases hm
  | other _ _ ih =>
    obtain ⟨us, hus, hsub⟩ := ih (by simpa using hm)
    exact ⟨us, hus, fun t ht => List.mem_cons_of_mem _ (hsub t ht)⟩
  | @value t ts rest term pieces hterm _ _ ih =>
    rcases List.mem_cons.mp hm with heq | hm
    · cases heq
      exact ⟨_, hterm, fun u hu => List.mem_append_left rest hu⟩
    · obtain ⟨us, hus, hsub⟩ := ih hm
      exact ⟨us, hus, fun u hu => List.mem_append_right _ (hsub u hu)⟩

theorem callFollows_value (h : Spells depth ts (.value term)) :
    callFollows (ts ++ rest) = false := by
  obtain ⟨first, us, rfl, hfirst⟩ := h.exists_first
  rw [List.cons_append, callFollows_cons (TokenKind.isTrivia_of_startsValue hfirst)]
  simpa using TokenKind.ne_of_startsValue hfirst (l := .method) rfl

theorem WellFormed.other (ht : t.kind.startsValue = false) (h : WellFormed depth rest) :
    WellFormed depth (t :: rest) := by
  obtain ⟨pieces, hp⟩ := h
  exact ⟨_, .other ht hp⟩

theorem WellFormed.gap (hg : Gap g) (h : WellFormed depth rest) : WellFormed depth (g ++ rest) := by
  induction g with
  | nil => exact h
  | cons t g ih =>
    have ht := TokenKind.startsValue_of_isTrivia (hg t (by simp))
    exact .other ht (ih (fun u hu => hg u (by simp [hu])))

theorem WellFormed.value (hts : Spells depth ts (.value term)) (hc : callFollows rest = false)
    (h : WellFormed depth rest) : WellFormed depth (ts ++ rest) := by
  obtain ⟨pieces, hp⟩ := h
  obtain ⟨first, us, rfl, _⟩ := hts.exists_first
  exact ⟨_, .value hts hc hp⟩

theorem Free.done (h : Free depth ts) : Done depth ts :=
  fun rest _ hrest => h rest hrest

/-- A value and what separates it from the next token may follow. -/
theorem Done.value (h : Done depth ts) (hus : Spells depth us (.value term)) (hg : Gap g) :
    Done depth (ts ++ us ++ g) := by
  intro rest hc hrest
  have hgap : callFollows (g ++ rest) = false := by rw [callFollows_gap_append hg, hc]
  rw [List.append_assoc, List.append_assoc]
  exact h _ (callFollows_value hus) (.value hus hgap (.gap hg hrest))

/-- A token that starts no value and calls no method may follow. -/
theorem Done.snoc (h : Done depth ts) (ht : t.isTrivia = false) (hm : t.kind ≠ .method)
    (hs : t.kind.startsValue = false) : Free depth (ts ++ [t]) := by
  intro rest hrest
  rw [List.append_assoc]
  refine h _ ?_ (.other hs hrest)
  rw [List.singleton_append, callFollows_cons ht]
  simpa using hm

theorem Free.snoc (h : Free depth ts) (hs : t.kind.startsValue = false) :
    Free depth (ts ++ [t]) := by
  intro rest hrest
  rw [List.append_assoc]
  exact h _ (.other hs hrest)

/-- These tokens open a list: with the rest of it they spell a value. -/
def Opens (depth : Nat) (ts : List Token) (closer : TokenKind) : Prop :=
  ∀ us items, Spells depth us (.list closer items) →
    ∃ term, Spells (depth + 1) (ts ++ us) (.value term)

/-- The tokens of an open list after those that opened it. -/
inductive Begun (depth : Nat) : OpenList → List Token → Prop
  | nothing {opening : Opening} {g : List Token} : Gap g → Begun depth ⟨opening, [], false⟩ g
  | item {opening : Opening} {v : Value} {vs : List Value} {ts g : List Token}
    {items : List Term} :
    Spells depth ts (.series items) → Gap g → Begun depth ⟨opening, v :: vs, true⟩ (ts ++ g)
  | comma {opening : Opening} {v : Value} {vs : List Value} {t : Token} {ts g g' : List Token}
    {items : List Term} :
    Spells depth ts (.series items) → Gap g → t.kind = .comma → Gap g' →
    Begun depth ⟨opening, v :: vs, false⟩ (ts ++ g ++ t :: g')

/-- A value may come next. -/
def ValueNext (lists : List OpenList) : Prop :=
  ∀ list ∈ lists.head?, list.commaExpected = false

/-- The tokens of a rule up to a place where these lists are open; a value in the innermost one can
nest this much deeper. -/
inductive Pending (maxDepth : Nat) : Nat → List OpenList → List Token → Prop
  | outside {ts : List Token} : Done maxDepth ts → Pending maxDepth maxDepth [] ts
  | inside {depth : Nat} {list : OpenList} {lists : List OpenList} {ts us body : List Token} :
    Pending maxDepth (depth + 1) lists ts → ValueNext lists →
    Opens depth us list.opening.closer → Begun depth list body →
    Pending maxDepth depth (list :: lists) (ts ++ us ++ body)

variable {maxDepth : Nat} {list : OpenList} {lists : List OpenList} {body : List Token}

theorem Opens.array (ht : t.kind = .openBracket) : Opens depth [t] .closeBracket :=
  fun _ _ h => ⟨_, .array ht h⟩

theorem Opens.function (ht : t.kind = .function) : Opens depth [t] .closeParen :=
  fun _ _ h => ⟨_, .function ht h⟩

theorem Opens.method (hts : Spells (depth + 1) ts (.value term)) (hg : Gap g)
    (ht : t.kind = .method) : Opens depth (ts ++ g ++ [t]) .closeParen := by
  intro us items h
  rw [List.append_assoc]
  exact ⟨_, .method hts hg ht h⟩

theorem Begun.gap (h : Begun depth list body) (hg : Gap g) : Begun depth list (body ++ g) := by
  cases h with
  | nothing hg' => exact .nothing (hg'.append hg)
  | item hs hg' =>
    rw [List.append_assoc]
    exact .item hs (hg'.append hg)
  | comma hs hg₁ ht hg₂ =>
    rw [List.append_assoc, List.cons_append]
    exact .comma hs hg₁ ht (hg₂.append hg)

theorem Begun.value {opening : Opening} {vs : List Value} {v : Value}
    (h : Begun depth ⟨opening, vs, false⟩ body) (hts : Spells depth ts (.value term)) (hg : Gap g) :
    Begun depth ⟨opening, v :: vs, true⟩ (body ++ ts ++ g) := by
  cases h with
  | nothing hg' => exact .item (.one hg' hts) hg
  | @comma _ _ _ t us g₁ g₂ _ hs hg₁ ht hg₂ =>
    have hmore := Spells.more hs hg₁ ht hg₂ hts
    rw [← List.cons_append, ← List.append_assoc] at hmore
    exact .item hmore hg

/-- A list ends after a value or at once. -/
theorem Begun.close (h : Begun depth list body)
    (hc : list.commaExpected = true ∨ list.items = []) :
    ∃ items, Spells depth (body ++ [t]) (.list t.kind items) := by
  cases h with
  | nothing hg => exact ⟨_, .none hg⟩
  | item hs hg => exact ⟨_, .some hs hg⟩
  | comma => rcases hc with h | h <;> cases h

namespace Pending

theorem depth_add (h : Pending maxDepth depth lists ts) : depth + lists.length = maxDepth := by
  induction h with
  | outside => rfl
  | inside _ _ _ _ ih =>
    simp only [List.length_cons]
    omega

theorem opened (h : Pending maxDepth (depth + 1) lists ts) (hn : ValueNext lists)
    {opening : Opening} (ho : Opens depth us opening.closer) :
    Pending maxDepth depth (⟨opening, [], false⟩ :: lists) (ts ++ us) := by
  have hb : Begun depth ⟨opening, [], false⟩ [] := .nothing (by simp [Gap])
  simpa using Pending.inside h hn ho hb

theorem gap (h : Pending maxDepth depth (list :: lists) ts) (hg : Gap g) :
    Pending maxDepth depth (list :: lists) (ts ++ g) := by
  cases h with
  | inside hp hn ho hb =>
    rw [List.append_assoc]
    exact .inside hp hn ho (hb.gap hg)

/-- A value that ends becomes an element of the innermost list. -/
theorem value {opening : Opening} {vs : List Value}
    (h : Pending maxDepth depth (⟨opening, vs, false⟩ :: lists) ts)
    (hus : Spells depth us (.value term)) (hg : Gap g) (v : Value) :
    Pending maxDepth depth (⟨opening, v :: vs, true⟩ :: lists) (ts ++ us ++ g) := by
  cases h with
  | inside hp hn ho hb =>
    have hnext : Pending maxDepth depth (⟨opening, v :: vs, true⟩ :: lists) _ :=
      .inside hp hn ho (hb.value hus hg)
    simpa using hnext

theorem comma {opening : Opening} {vs : List Value}
    (h : Pending maxDepth depth (⟨opening, vs, true⟩ :: lists) ts) (ht : t.kind = .comma) :
    Pending maxDepth depth (⟨opening, vs, false⟩ :: lists) (ts ++ [t]) := by
  cases h with
  | inside hp hn ho hb =>
    cases hb with
    | item hs hg =>
      rw [List.append_assoc]
      exact .inside hp hn ho (.comma hs hg ht (by simp [Gap]))

/-- The token that ends the innermost list ends a value. -/
theorem close (h : Pending maxDepth depth (list :: lists) ts)
    (hc : list.commaExpected = true ∨ list.items = []) (ht : t.kind = list.opening.closer) :
    ∃ us vs term, ts ++ [t] = us ++ vs ∧ Pending maxDepth (depth + 1) lists us ∧
      ValueNext lists ∧ Spells (depth + 1) vs (.value term) := by
  cases h with
  | @inside _ _ _ us opener body hp hn ho hb =>
    obtain ⟨items, hlist⟩ := hb.close (t := t) hc
    rw [ht] at hlist
    obtain ⟨term, hterm⟩ := ho _ _ hlist
    exact ⟨us, opener ++ (body ++ [t]), term, by simp, hp, hn, hterm⟩

end Pending

namespace OperandReader

variable {scope : Scope} {r : OperandReader}

/-- The tokens that were read so far, in each of the states between two tokens. -/
inductive Progress (maxDepth : Nat) (r : OperandReader) : List Token → Prop
  | idle {ts : List Token} :
    r.lists = [] → r.operand = none → Free maxDepth ts → Progress maxDepth r ts
  | listed {depth : Nat} {ts : List Token} :
    r.lists ≠ [] → r.operand = none → Pending maxDepth depth r.lists ts → ValueNext r.lists →
    Progress maxDepth r ts
  | held {depth : Nat} {operand : Operand} {ts us g : List Token} {term : Term} :
    r.operand = some operand → Pending maxDepth depth r.lists ts → ValueNext r.lists →
    Spells depth us (.value term) → Gap g → Progress maxDepth r (ts ++ us ++ g)

/-- A token that starts a value is one, or opens a list. -/
theorem startValue_of_fault (hs : t.kind.startsValue = true)
    (h : (startValue scope r t).fault = none) :
    (∃ token bound, t.kind.group = .value ∧ startValue scope r t = r.hold token bound) ∨
    ∃ opening, (∀ depth, Opens depth [t] opening.closer) ∧ r.lists.length < scope.maxDepth ∧
      startValue scope r t =
        { r with lists := ⟨opening, [], false⟩ :: r.lists, operand := none, trivia := [] } := by
  have hgroup : t.kind ≠ .openBracket → t.kind ≠ .function → t.kind.group = .value := by
    intro hb hf
    simpa [TokenKind.startsValue, hb, hf] using hs
  unfold startValue at h ⊢
  split at h
  next hk => exact .inr ⟨.array t, fun _ => .array hk, openList_of_fault h⟩
  next hk =>
    split at h
    next f _ => exact .inr ⟨.function f t, fun _ => .function hk, openList_of_fault h⟩
    next => cases h
  next hk _ =>
    have hg : t.kind.group = .value := by rw [hk]; rfl
    split at h
    next v _ => exact .inl ⟨_, true, hg, rfl⟩
    next =>
      split at h
      next hl => exact .inl ⟨t, false, hg, by rw [if_pos hl]⟩
      next => cases h
  next hb hf => exact .inl ⟨_, true, hgroup hb hf, rfl⟩
  next hb hf _ => exact .inl ⟨_, true, hgroup hb hf, rfl⟩

theorem progress_startValue (hp : Pending scope.maxDepth depth r.lists ts)
    (hn : ValueNext r.lists) (hs : t.kind.startsValue = true)
    (hf : (startValue scope r t).fault = none) :
    Progress scope.maxDepth (startValue scope r t) (ts ++ [t]) := by
  rcases startValue_of_fault hs hf with ⟨token, bound, hg, hr⟩ | ⟨opening, ho, hd, hr⟩
  · have hheld := Progress.held (r := r.hold token bound) (g := []) rfl hp hn (.atom hg)
      (by simp [Gap])
    rw [hr]
    simpa using hheld
  · have hdepth := hp.depth_add
    obtain ⟨d, rfl⟩ : ∃ d, depth = d + 1 := ⟨depth - 1, by omega⟩
    rw [hr]
    exact .listed (by simp) rfl (hp.opened hn (ho d)) (by simp [ValueNext])

theorem progress_startCall {operand : Operand} (hp : Pending scope.maxDepth depth r.lists ts)
    (hn : ValueNext r.lists) (hus : Spells depth us (.value term)) (hg : Gap g)
    (ht : t.kind = .method) (hf : (startCall scope r operand t).fault = none) :
    Progress scope.maxDepth (startCall scope r operand t) (ts ++ us ++ g ++ [t]) := by
  obtain ⟨f, _, _, hd, hr⟩ := startCall_of_fault hf
  have hdepth := hp.depth_add
  obtain ⟨d, rfl⟩ : ∃ d, depth = d + 1 := ⟨depth - 1, by omega⟩
  have ho : Opens d (us ++ g ++ [t]) (Opening.method f t operand.token).closer :=
    .method hus hg ht
  have hopened := hp.opened hn ho
  rw [hr]
  exact .listed (by simp) rfl (by simpa using hopened) (by simp [ValueNext])

theorem progress_readInList (hl : r.lists = list :: lists) (ho : r.operand = none)
    (hp : Pending scope.maxDepth depth (list :: lists) ts)
    (hf : (readInList scope r list lists t).fault = none) :
    Progress scope.maxDepth (readInList scope r list lists t) (ts ++ [t]) := by
  unfold readInList at hf ⊢
  split at hf
  next hk =>
    rw [if_pos hk]
    obtain ⟨hc, token, hr⟩ := closeList_of_fault hf
    obtain ⟨us, vs, term, heq, hp', hn, hterm⟩ := hp.close hc hk
    have htail : r.lists.tail = lists := by rw [hl]; rfl
    have hheld := Progress.held (r := { r with lists := r.lists.tail }.hold token true) (g := [])
      rfl (by simpa [hold, htail] using hp') (by simpa [hold, htail] using hn) hterm (by simp [Gap])
    rw [hr, heq]
    simpa using hheld
  next hk =>
    rw [if_neg hk]
    split at hf
    next hs =>
      rw [if_pos hs]
      split at hf
      next => cases hf
      next hc =>
        rw [if_neg hc]
        rw [← hl] at hp
        exact progress_startValue hp (by simp [ValueNext, hl, hc]) hs hf
    next hs =>
      rw [if_neg hs]
      split at hf
      next hc =>
        rw [if_pos hc]
        obtain ⟨opening, items, expected⟩ := list
        obtain ⟨hcomma, rfl⟩ := hc
        exact .listed (by simp) ho (hp.comma hcomma) (by simp [ValueNext])
      next => cases hf

theorem progress_readToken (ho : r.operand = none) (hp : Pending scope.maxDepth depth r.lists ts)
    (ht : t.isTrivia = false) (hfree : t.kind = .method → r.lists = [] → Free scope.maxDepth ts)
    (hf : (readToken scope r t).fault = none) :
    Progress scope.maxDepth (readToken scope r t) (ts ++ [t]) := by
  unfold readToken at hf ⊢
  split at hf
  next list lists hl => exact progress_readInList hl ho (hl ▸ hp) hf
  next hl =>
    split at hf
    next hs =>
      rw [if_pos hs]
      exact progress_startValue hp (by simp [ValueNext, hl]) hs hf
    next hs =>
      rw [if_neg hs]
      have hs' : t.kind.startsValue = false := by simpa using hs
      refine .idle hl ho ?_
      by_cases hm : t.kind = .method
      · exact (hfree hm hl).snoc hs'
      · rw [hl] at hp
        cases hp with
        | outside hd => exact hd.snoc ht hm hs'

theorem pending_settle {operand : Operand} (ho : r.operand = some operand)
    (hp : Pending maxDepth depth r.lists ts) (hn : ValueNext r.lists)
    (hus : Spells depth us (.value term)) (hg : Gap g) :
    Pending maxDepth depth r.settle.lists (ts ++ us ++ g) ∧ r.settle.operand = none := by
  unfold settle
  rw [ho]
  cases hl : r.lists with
  | nil =>
    rw [hl] at hp
    cases hp with
    | outside hd => exact ⟨.outside (hd.value hus hg), rfl⟩
  | cons list lists =>
    rw [hl] at hp hn
    obtain ⟨opening, items, expected⟩ := list
    have hexpected : expected = false := hn _ rfl
    subst hexpected
    exact ⟨hp.value hus hg _, rfl⟩

theorem progress_step (h : Progress scope.maxDepth r ts) (hr : r.fault = none)
    (hf : (step scope r t).fault = none) :
    Progress scope.maxDepth (step scope r t) (ts ++ [t]) := by
  cases htt : t.isTrivia with
  | true =>
    have hs : t.kind.startsValue = false := TokenKind.startsValue_of_isTrivia htt
    rw [step_trivia hr htt]
    cases h with
    | idle hl ho hfree =>
      simp only [readTrivia, hl, ho]
      exact .idle (by simpa [emit] using hl) (by simpa [emit] using ho) (hfree.snoc hs)
    | listed hl ho hp hn =>
      obtain ⟨list, lists, hl⟩ := List.exists_cons_of_ne_nil hl
      simp only [readTrivia, hl]
      rw [hl] at hp
      exact .listed (by simp [hl]) ho (hl ▸ hp.gap (by simpa [Gap] using htt)) hn
    | @held _ operand _ _ _ _ ho hp hn hus hg =>
      have hsame : (r.readTrivia t).lists = r.lists ∧ (r.readTrivia t).operand = some operand := by
        unfold readTrivia
        split <;> simp_all
      rw [List.append_assoc]
      exact .held hsame.2 (hsame.1 ▸ hp) (hsame.1 ▸ hn) hus (hg.snoc htt)
  | false =>
    cases h with
    | idle hl ho hfree =>
      rw [step_significant hr htt (fun _ => ho), settle_of_operand_none ho] at hf ⊢
      have hp : Pending scope.maxDepth scope.maxDepth r.lists ts := by
        rw [hl]
        exact .outside hfree.done
      exact progress_readToken ho hp htt (fun _ _ => hfree) hf
    | listed hl ho hp hn =>
      rw [step_significant hr htt (fun _ => ho), settle_of_operand_none ho] at hf ⊢
      exact progress_readToken ho hp htt (fun _ h => absurd h hl) hf
    | @held _ operand _ _ _ _ ho hp hn hus hg =>
      by_cases hm : t.kind = .method
      · rw [step_method hr ho hm] at hf ⊢
        exact progress_startCall hp hn hus hg hm hf
      · obtain ⟨hp', ho'⟩ := pending_settle ho hp hn hus hg
        rw [step_significant hr htt (fun h => absurd h hm)] at hf ⊢
        exact progress_readToken ho' hp' htt (fun h => absurd h hm) hf

theorem progress_run (h : Progress scope.maxDepth r us)
    (hf : (run scope r ts).fault = none) : Progress scope.maxDepth (run scope r ts) (us ++ ts) := by
  induction ts generalizing r us with
  | nil => simpa using h
  | cons t ts ih =>
    have hstep := progress_step h (fault_of_run _ hf) (fault_of_run ts hf)
    simpa using ih hstep hf

theorem progress_start : Progress maxDepth start [] :=
  .idle rfl rfl (fun _ h => h)

theorem wellFormed_of_finish (h : Progress maxDepth r ts) (hf : r.finish.fault = none) :
    WellFormed maxDepth ts := by
  obtain ⟨_, hl, _⟩ := run_of_finish hf
  have hend : WellFormed maxDepth [] := ⟨[], .nil⟩
  cases h with
  | idle _ _ hfree => simpa using hfree [] hend
  | listed hne => exact absurd hl hne
  | held _ hp _ hus hg =>
    rw [hl] at hp
    cases hp with
    | outside hd => simpa using hd.value hus hg [] rfl hend

end OperandReader

namespace Operands

open OperandReader

variable {scope : Scope} {tokens : List Token}

theorem wellFormed_of_fault (h : (ofTokens scope tokens).fault = none) :
    WellFormed scope.maxDepth tokens := by
  obtain ⟨hrun, _, _⟩ := run_of_finish (r := run scope start tokens) h
  exact wellFormed_of_finish (progress_run progress_start hrun) h

/-- Tokens that split into parts have their operands worked out, unless a part has no value: then it
is a call that fails. -/
theorem outcome_of_splits {pieces : List Piece} (h : Splits scope.maxDepth tokens pieces)
    (hk : ∀ t ∈ tokens, scope.Knows t) :
    ((∃ first term, .value first term ∈ pieces ∧ term.value? scope = none) ∧
      ∃ cause location, (ofTokens scope tokens).fault = some (.badType (.call cause) location)) ∨
    ((ofTokens scope tokens).fault = none ∧
      List.Forall₂ (Piece.Yields scope) pieces (ofTokens scope tokens).tokens) := by
  rcases finish_run_of_splits h hk [] with hfailed | ⟨hf, outs, hout, hall⟩
  · exact .inl hfailed
  · have htokens : (ofTokens scope tokens).tokens = outs := by
      simpa [ofTokens, run, between, start] using congrArg List.reverse hout
    exact .inr ⟨hf, htokens ▸ hall⟩

theorem yields_of_splits {pieces : List Piece} (h : Splits scope.maxDepth tokens pieces)
    (hk : ∀ t ∈ tokens, scope.Knows t) (hf : (ofTokens scope tokens).fault = none) :
    List.Forall₂ (Piece.Yields scope) pieces (ofTokens scope tokens).tokens := by
  rcases outcome_of_splits h hk with ⟨_, cause, location, hfailed⟩ | ⟨_, hall⟩
  · cases hf.symm.trans hfailed
  · exact hall

theorem fault_of_values {pieces : List Piece} (h : Splits scope.maxDepth tokens pieces)
    (hk : ∀ t ∈ tokens, scope.Knows t)
    (hv : ∀ first term, .value first term ∈ pieces → ∃ v, term.value? scope = some v) :
    (ofTokens scope tokens).fault = none := by
  rcases outcome_of_splits h hk with ⟨⟨first, term, hm, hlost⟩, _⟩ | ⟨hf, _⟩
  · obtain ⟨v, hsome⟩ := hv first term hm
    cases hlost.symm.trans hsome
  · exact hf

end Operands

/-- If all names are known and no call fails, then the operands of a rule are read without an error
if and only if its tokens split into parts, and each part becomes the token that it should. -/
theorem ofTokens_reads_splits (scope : Scope) (tokens : List Token)
    (hknown : ∀ t ∈ tokens, scope.Knows t)
    (hcalls : ∀ cause location,
      (Operands.ofTokens scope tokens).fault ≠ some (.badType (.call cause) location)) :
    ((Operands.ofTokens scope tokens).fault = none ↔
      ∃ pieces, Splits scope.maxDepth tokens pieces) ∧
    ∀ pieces, Splits scope.maxDepth tokens pieces →
      List.Forall₂ (Piece.Yields scope) pieces (Operands.ofTokens scope tokens).tokens := by
  have hread : ∀ pieces, Splits scope.maxDepth tokens pieces →
      (Operands.ofTokens scope tokens).fault = none ∧
        List.Forall₂ (Piece.Yields scope) pieces (Operands.ofTokens scope tokens).tokens := by
    intro pieces hp
    rcases Operands.outcome_of_splits hp hknown with ⟨_, cause, location, hf⟩ | hread
    · exact absurd hf (hcalls cause location)
    · exact hread
  exact ⟨⟨Operands.wellFormed_of_fault, fun ⟨pieces, hp⟩ => (hread pieces hp).1⟩,
    fun pieces hp => (hread pieces hp).2⟩

theorem ofTokens_reads_splits_chain :
    let scope : Scope := ⟨.ofList [("x", .string "1-2")], .standard, 1⟩
    let tokens : List Token := [⟨.method, ".trim(", none, ⟨0, 0, 1⟩⟩,
      ⟨.identifier, "x", none, ⟨6, 6, 1⟩⟩, ⟨.comparison .equal, "==", none, ⟨7, 7, 1⟩⟩,
      ⟨.openBracket, "[", none, ⟨9, 9, 1⟩⟩, ⟨.integer, "1", some (.integer 1), ⟨10, 10, 1⟩⟩,
      ⟨.space, " ", none, ⟨11, 11, 1⟩⟩, ⟨.comma, ",", none, ⟨12, 12, 1⟩⟩,
      ⟨.integer, "2", some (.integer 2), ⟨13, 13, 1⟩⟩, ⟨.closeBracket, "]", none, ⟨14, 14, 1⟩⟩,
      ⟨.space, " ", none, ⟨15, 15, 1⟩⟩, ⟨.method, ".join(", none, ⟨16, 16, 1⟩⟩,
      ⟨.string, "'-'", some (.string "-"), ⟨22, 22, 1⟩⟩, ⟨.closeParen, ")", none, ⟨25, 25, 1⟩⟩]
    (∀ t ∈ tokens, scope.Knows t) ∧ (Operands.ofTokens scope tokens).fault = none ∧
      ∃ pieces, Splits 1 tokens pieces ∧
        List.Forall₂ (Piece.Yields scope) pieces (Operands.ofTokens scope tokens).tokens := by
  intro scope tokens
  have hknown : ∀ t ∈ tokens, scope.Knows t := by decide +kernel
  have hf : (Operands.ofTokens scope tokens).fault = none := by decide +kernel
  have hreads := ofTokens_reads_splits scope tokens hknown (by simp [hf])
  obtain ⟨pieces, hp⟩ := hreads.1.mp hf
  exact ⟨hknown, hf, pieces, hp, hreads.2 pieces hp⟩

end Verdict
