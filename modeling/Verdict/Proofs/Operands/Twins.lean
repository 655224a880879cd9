import Verdict.Proofs.Formula.Exchange
import Verdict.Proofs.Operands.Evaluation
import Verdict.Proofs.Operands.Known

namespace Verdict

theorem Token.exchanges_self {t : Token} (h : t.kind.group ≠ .value) : t.Exchanges t :=
  ⟨fun hg => absurd hg h, fun _ => rfl⟩

theorem Token.exchanges_of_value {t u : Token} (ht : t.kind.group = .value)
    (hu : u.kind.group = .value) (hv : u.value ≠ none) : u.Exchanges t :=
  ⟨fun _ => ⟨hu, fun _ => hv⟩, fun hg => absurd ht hg⟩

/-- The same list is opened; the receivers of a method may differ. -/
inductive Opening.Twins : Opening → Opening → Prop
  | array (t : Token) : Twins (.array t) (.array t)
  | function (f : Callable) (t : Token) : Twins (.function f t) (.function f t)
  | method (f : Callable) (t receiver receiver' : Token) :
    Twins (.method f t receiver) (.method f t receiver')

theorem Opening.Twins.closer {o p : Opening} (h : o.Twins p) : p.closer = o.closer := by
  cases h <;> rfl

/-- Lists with the same opening and as many elements. -/
structure OpenList.Twins (l m : OpenList) : Prop where
  opening : l.opening.Twins m.opening
  items : m.items.length = l.items.length
  commaExpected : m.commaExpected = l.commaExpected

/-- Operands with values, whichever these are. -/
structure Operand.Twins (o p : Operand) : Prop where
  bound : o.bound = true ∧ p.bound = true
  exchanges : p.token.Exchanges o.token

namespace OperandReader

/-- Two readers in the same place, but for the values that they have found. -/
structure Twins (r s : OperandReader) : Prop where
  lists : List.Forall₂ OpenList.Twins r.lists s.lists
  operand : Option.Rel Operand.Twins r.operand s.operand
  trivia : List.Forall₂ Token.Exchanges s.trivia r.trivia
  output : List.Forall₂ Token.Exchanges s.output r.output
  fault : s.fault = r.fault

/-- The second reader has ended with a call that failed, and got no further than the first. -/
structure Trails (r s : OperandReader) : Prop where
  failed : s.CallFailed
  output : ∃ read, read <:+ r.output ∧ List.Forall₂ Token.Exchanges s.output read

/-- The second reader keeps up with the first, or a call has failed. -/
def Follows (r s : OperandReader) : Prop := Twins r s ∨ Trails r s

variable {scope : Scope} {b' : Bindings} {r s : OperandReader} {t : Token}

theorem twins_start : Twins start start :=
  ⟨.nil, .none, .nil, .nil, rfl⟩

namespace Twins

theorem operand_none (h : Twins r s) (ho : r.operand = none) : s.operand = none := by
  have hoperand := h.operand
  rw [ho] at hoperand
  generalize s.operand = operand at hoperand ⊢
  cases hoperand
  rfl

theorem operand_some (h : Twins r s) {o : Operand} (ho : r.operand = some o) :
    ∃ p, s.operand = some p ∧ o.Twins p := by
  have hoperand := h.operand
  rw [ho] at hoperand
  generalize s.operand = operand at hoperand ⊢
  cases hoperand with
  | some hop => exact ⟨_, rfl, hop⟩

theorem lists_nil (h : Twins r s) (hl : r.lists = []) : s.lists = [] := by
  have hlists := h.lists
  rwa [hl, List.forall₂_nil_left_iff] at hlists

theorem lists_cons (h : Twins r s) {l : OpenList} {ls : List OpenList} (hl : r.lists = l :: ls) :
    ∃ m ms, s.lists = m :: ms ∧ l.Twins m ∧ List.Forall₂ OpenList.Twins ls ms := by
  have hlists := h.lists
  rw [hl, List.forall₂_cons_left_iff] at hlists
  obtain ⟨m, ms, hlm, hrest, hs⟩ := hlists
  exact ⟨m, ms, hs, hlm, hrest⟩

theorem hold (h : Twins r s) {token token' : Token} (hx : token'.Exchanges token) :
    Twins (r.hold token true) (s.hold token' true) :=
  ⟨h.lists, .some ⟨⟨rfl, rfl⟩, hx⟩, h.trivia, h.output, h.fault⟩

theorem emit (h : Twins r s) (ht : t.kind.group ≠ .value) : Twins (r.emit t) (s.emit t) :=
  ⟨h.lists, h.operand, h.trivia, .cons (Token.exchanges_self ht) h.output, h.fault⟩

theorem settle (h : Twins r s) : Twins r.settle s.settle := by
  obtain ⟨lists, operand, trivia, output, fault⟩ := r
  obtain ⟨lists', operand', trivia', output', fault'⟩ := s
  obtain ⟨hlists, hoperand, htrivia, houtput, hfault⟩ := h
  cases hoperand with
  | none => exact ⟨hlists, .none, htrivia, houtput, hfault⟩
  | @some o p hop =>
    cases hlists with
    | nil => exact ⟨.nil, .none, .nil, List.rel_append htrivia (.cons hop.exchanges houtput), hfault⟩
    | cons hl hrest =>
      exact ⟨.cons ⟨hl.opening, congrArg (· + 1) hl.items, rfl⟩ hrest, .none, .nil, houtput, hfault⟩

theorem openList (h : Twins r s) {o p : Opening} (hop : o.Twins p)
    (hf : (openList scope r o t).fault = none) :
    Twins (openList scope r o t) (openList { scope with bindings := b' } s p t) := by
  obtain ⟨hd, hr⟩ := openList_of_fault hf
  have hlength : s.lists.length = r.lists.length := h.lists.length_eq.symm
  rw [hr, openList_ok (by rw [hlength]; exact hd)]
  exact ⟨.cons ⟨hop, rfl, rfl⟩ h.lists, .none, .nil, h.output, h.fault⟩

theorem startValue (h : Twins r s) (hs : t.kind.startsValue = true) (hk : scope.Knows t)
    (hk' : { scope with bindings := b' }.Knows t) (hf : (startValue scope r t).fault = none) :
    Twins (startValue scope r t) (startValue { scope with bindings := b' } s t) := by
  have hgroup : t.kind ≠ .openBracket → t.kind ≠ .function → t.kind.group = .value := by
    intro hb hfun
    simpa [TokenKind.startsValue, hb, hfun] using hs
  have hresolved : ∀ (v w : Value), (Token.resolved w t.raw t.location).Exchanges
      (.resolved v t.raw t.location) :=
    fun v w => Token.exchanges_of_value (TokenKind.group_ofValue v) (TokenKind.group_ofValue w)
      (by simp [Token.resolved])
  unfold OperandReader.startValue at hf ⊢
  split at hf
  next => exact h.openList (.array t) hf
  next hfun =>
    obtain ⟨f, hfound⟩ := Option.isSome_iff_exists.mp (hk.function hfun)
    simp only [hfound] at hf ⊢
    exact h.openList (.function f t) hf
  next hid hv =>
    obtain ⟨v, hfound⟩ := Option.isSome_iff_exists.mp (hk.bound hid hv)
    obtain ⟨w, hfound'⟩ := Option.isSome_iff_exists.mp (hk'.bound hid hv)
    simp only [hfound, hfound']
    exact h.hold (hresolved v w)
  next v hv hb hfun =>
    have hg := hgroup hb hfun
    exact h.hold (Token.exchanges_of_value hg hg (by simp [hv]))
  next => exact h.hold (hresolved _ _)

theorem startCall (h : Twins r s) {o p : Operand} (hop : o.Twins p)
    (hf : (startCall scope r o t).fault = none) :
    Twins (startCall scope r o t) (startCall { scope with bindings := b' } s p t) := by
  unfold OperandReader.startCall at hf ⊢
  rw [hop.bound.1] at hf ⊢
  rw [hop.bound.2]
  simp only [Bool.not_true, Bool.false_eq_true, if_false] at hf ⊢
  split at hf
  next f _ => exact h.openList (.method f t o.token p.token) hf
  next => cases hf

theorem readTrivia (h : Twins r s) (ht : t.isTrivia = true) :
    Twins (r.readTrivia t) (s.readTrivia t) := by
  have hg : t.kind.group ≠ .value := TokenKind.group_ne_value_of_isTrivia ht
  obtain ⟨lists, operand, trivia, output, fault⟩ := r
  obtain ⟨lists', operand', trivia', output', fault'⟩ := s
  obtain ⟨hlists, hoperand, htrivia, houtput, hfault⟩ := h
  cases hlists with
  | cons hl hrest => exact ⟨.cons hl hrest, hoperand, htrivia, houtput, hfault⟩
  | nil =>
    cases hoperand with
    | none => exact ⟨.nil, .none, htrivia, .cons (Token.exchanges_self hg) houtput, hfault⟩
    | some hop =>
      exact ⟨.nil, .some hop, .cons (Token.exchanges_self hg) htrivia, houtput, hfault⟩

end Twins

theorem follows_closeList (h : Twins r s) {l m : OpenList} (hlm : l.Twins m)
    (hf : (closeList r l t).fault = none) : Follows (closeList r l t) (closeList s m t) := by
  have hempty : m.items.isEmpty = l.items.isEmpty := by
    rw [Bool.eq_iff_iff, List.isEmpty_iff_length_eq_zero, List.isEmpty_iff_length_eq_zero, hlm.items]
  have htail : List.Forall₂ OpenList.Twins r.lists.tail s.lists.tail := by
    cases hr : r.lists with
    | nil =>
      rw [h.lists_nil hr]
      exact .nil
    | cons l ls =>
      obtain ⟨m, ms, hs, _, hrest⟩ := h.lists_cons hr
      rw [hs]
      exact hrest
  unfold closeList at hf ⊢
  rw [hlm.commaExpected, hempty]
  split at hf
  next => cases hf
  next hc =>
    rw [if_neg hc, if_neg hc]
    split at hf
    next token hl =>
      obtain ⟨hgroup, _⟩ := Opening.complete_carries hl
      cases hm : m.opening.complete m.items.reverse with
      | ok token' =>
        obtain ⟨hgroup', hvalue'⟩ := Opening.complete_carries hm
        have htwins : Twins { r with lists := r.lists.tail } { s with lists := s.lists.tail } :=
          ⟨htail, h.operand, h.trivia, h.output, h.fault⟩
        exact .inl (htwins.hold (Token.exchanges_of_value hgroup hgroup' hvalue'))
      | error e =>
        obtain ⟨cause, location, rfl⟩ := Opening.complete_error hm
        exact .inr ⟨⟨cause, location, rfl⟩, r.output, List.suffix_rfl, h.output⟩
    next => cases hf

theorem follows_readInList (h : Twins r s) {l m : OpenList} {ls ms : List OpenList}
    (hlm : l.Twins m) (hrest : List.Forall₂ OpenList.Twins ls ms) (hk : scope.Knows t)
    (hk' : { scope with bindings := b' }.Knows t) (hf : (readInList scope r l ls t).fault = none) :
    Follows (readInList scope r l ls t) (readInList { scope with bindings := b' } s m ms t) := by
  unfold readInList at hf ⊢
  rw [hlm.opening.closer, hlm.commaExpected]
  split at hf
  next hc =>
    rw [if_pos hc, if_pos hc]
    exact follows_closeList h hlm hf
  next hc =>
    rw [if_neg hc, if_neg hc]
    split at hf
    next hv =>
      rw [if_pos hv, if_pos hv]
      split at hf
      next => cases hf
      next hcomma =>
        rw [if_neg hcomma, if_neg hcomma]
        exact .inl (h.startValue hv hk hk' hf)
    next hv =>
      rw [if_neg hv, if_neg hv]
      split at hf
      next hcomma =>
        rw [if_pos hcomma, if_pos hcomma]
        have hl : OpenList.Twins { l with commaExpected := false } { m with commaExpected := false } :=
          ⟨hlm.opening, hlm.items, rfl⟩
        exact .inl ⟨.cons hl hrest, h.operand, h.trivia, h.output, h.fault⟩
      next => cases hf

theorem follows_readToken (h : Twins r s) (hk : scope.Knows t)
    (hk' : { scope with bindings := b' }.Knows t) (hf : (readToken scope r t).fault = none) :
    Follows (readToken scope r t) (readToken { scope with bindings := b' } s t) := by
  unfold readToken at hf ⊢
  cases hr : r.lists with
  | nil =>
    simp only [hr, h.lists_nil hr] at hf ⊢
    split at hf
    next hv =>
      rw [if_pos hv, if_pos hv]
      exact .inl (h.startValue hv hk hk' hf)
    next hv =>
      rw [if_neg hv, if_neg hv]
      exact .inl (h.emit fun hg => hv (TokenKind.startsValue_of_group hg))
  | cons l ls =>
    obtain ⟨m, ms, hs, hlm, hrest⟩ := h.lists_cons hr
    simp only [hr, hs] at hf ⊢
    exact follows_readInList h hlm hrest hk hk' hf

theorem follows_step (h : Twins r s) (hk : scope.Knows t)
    (hk' : { scope with bindings := b' }.Knows t) (hf : (step scope r t).fault = none) :
    Follows (step scope r t) (step { scope with bindings := b' } s t) := by
  have hr : r.fault = none := fault_of_run [t] hf
  have hs : s.fault = none := h.fault.trans hr
  cases ht : t.isTrivia with
  | true =>
    rw [step_trivia hr ht, step_trivia hs ht]
    exact .inl (h.readTrivia ht)
  | false =>
    have hread : (t.kind = .method → r.operand = none) → (t.kind = .method → s.operand = none) →
        Follows (step scope r t) (step { scope with bindings := b' } s t) := by
      intro ho ho'
      rw [step_significant hr ht ho] at hf ⊢
      rw [step_significant hs ht ho']
      exact follows_readToken h.settle hk hk' hf
    by_cases hm : t.kind = .method
    · cases ho : r.operand with
      | none => exact hread (fun _ => ho) (fun _ => h.operand_none ho)
      | some o =>
        obtain ⟨p, ho', hop⟩ := h.operand_some ho
        rw [step_method hr ho hm] at hf ⊢
        rw [step_method hs ho' hm]
        exact .inl (h.startCall hop hf)
    · exact hread (fun h => absurd h hm) (fun h => absurd h hm)

theorem Trails.step (h : Trails r s) :
    Trails (step scope r t) (OperandReader.step { scope with bindings := b' } s t) := by
  obtain ⟨⟨cause, location, hfault⟩, read, hread, hx⟩ := h
  rw [step_of_fault (r := s) (by simp [hfault])]
  exact ⟨⟨cause, location, hfault⟩, read, hread.trans output_suffix_step, hx⟩

theorem follows_run {ts : List Token} (h : Follows r s) (hk : ∀ t ∈ ts, scope.Knows t)
    (hk' : ∀ t ∈ ts, { scope with bindings := b' }.Knows t) (hf : (run scope r ts).fault = none) :
    Follows (run scope r ts) (run { scope with bindings := b' } s ts) := by
  induction ts generalizing r s with
  | nil => exact h
  | cons t ts ih =>
    refine ih ?_ (fun u hu => hk u (by simp [hu])) (fun u hu => hk' u (by simp [hu])) hf
    rcases h with h | h
    · exact follows_step h (hk t (by simp)) (hk' t (by simp)) (fault_of_run ts hf)
    · exact .inr h.step

theorem follows_finish (h : Follows r s) (hf : r.finish.fault = none) :
    Follows r.finish s.finish := by
  rcases h with h | ⟨⟨cause, location, hfault⟩, read, hread, hx⟩
  · obtain ⟨hr, hl, hfinish⟩ := run_of_finish hf
    have hfinish' : s.finish = s.settle := by simp [finish, h.fault, hr, h.lists_nil hl]
    rw [hfinish, hfinish']
    exact .inl h.settle
  · rw [finish_of_fault (r := s) (by simp [hfault])]
    exact .inr ⟨⟨cause, location, hfault⟩, read, hread.trans output_suffix_finish, hx⟩

end OperandReader

/-- If the operands of some tokens are worked out without an error, then so they are with other
values bound; or else a call fails on the way. -/
theorem Operands.ofTokens_twins {scope : Scope} {b' : Bindings} {tokens : List Token}
    (hk : ∀ t ∈ tokens, scope.Knows t) (hk' : ∀ t ∈ tokens, { scope with bindings := b' }.Knows t)
    (hf : (ofTokens scope tokens).fault = none) :
    ((ofTokens { scope with bindings := b' } tokens).fault = none ∧
      List.Forall₂ Token.Exchanges (ofTokens { scope with bindings := b' } tokens).tokens
        (ofTokens scope tokens).tokens) ∨
    ∃ cause location read,
      (ofTokens { scope with bindings := b' } tokens).fault =
        some (.badType (.call cause) location) ∧
      read <+: (ofTokens scope tokens).tokens ∧
      List.Forall₂ Token.Exchanges (ofTokens { scope with bindings := b' } tokens).tokens read := by
  obtain ⟨hrun, _, _⟩ := OperandReader.run_of_finish (r := .run scope .start tokens) hf
  have hfollows := OperandReader.follows_finish
    (OperandReader.follows_run (.inl OperandReader.twins_start) hk hk' hrun) hf
  rcases hfollows with h | ⟨⟨cause, location, hfault⟩, read, hread, hx⟩
  · exact .inl ⟨h.fault.trans hf, List.rel_reverse h.output⟩
  · exact .inr ⟨cause, location, read.reverse, hfault, List.reverse_prefix.mpr hread,
      List.rel_reverse hx⟩

end Verdict
