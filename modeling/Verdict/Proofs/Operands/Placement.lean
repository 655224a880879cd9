import Verdict.Proofs.Formula.Placement
import Verdict.Proofs.Operands.Reading

namespace Verdict

variable {P : Location → Prop}

/-- The tokens that opened a list, and the receiver of its call. -/
def Opening.Placed (P : Location → Prop) : Opening → Prop
  | array opener => P opener.location
  | function _ opener => P opener.location
  | method _ opener receiver => P opener.location ∧ P receiver.location

namespace Opening

variable {opening : Opening} {items : List Value} {token : Token} {e : RuleError}

theorem Placed.complete (h : opening.Placed P) (hc : opening.complete items = .ok token) :
    P token.location := by
  cases opening with
  | array opener =>
    cases hc
    exact h
  | function f opener =>
    simp only [Opening.complete] at hc
    split at hc
    next =>
      cases hc
      exact h
    next => cases hc
  | method f opener receiver =>
    simp only [Opening.complete] at hc
    split at hc
    next =>
      cases hc
      exact h.2
    next => cases hc

/-- A call that fails does so at the token that made it. -/
theorem Placed.complete_error (h : opening.Placed P) (hc : opening.complete items = .error e) :
    e.Placed P := by
  cases opening with
  | array opener => cases hc
  | function f opener =>
    simp only [Opening.complete] at hc
    split at hc
    next => cases hc
    next =>
      cases hc
      exact RuleError.placed_of_eq rfl h
  | method f opener receiver =>
    simp only [Opening.complete] at hc
    split at hc
    next => cases hc
    next =>
      cases hc
      exact RuleError.placed_of_eq rfl h.1

end Opening

namespace OperandReader

variable {scope : Scope} {r : OperandReader} {t : Token} {ts : List Token}

/-- All that a reader holds has its place among some places. -/
structure Placed (P : Location → Prop) (r : OperandReader) : Prop where
  lists : ∀ list ∈ r.lists, list.opening.Placed P
  operand : ∀ operand, r.operand = some operand → P operand.token.location
  trivia : ∀ u ∈ r.trivia, P u.location
  output : ∀ u ∈ r.output, P u.location
  fault : ∀ e, r.fault = some e → e.Placed P

theorem placed_start : Placed P start := by
  constructor <;> simp [start]

namespace Placed

theorem fail (h : Placed P r) {e : RuleError} (he : e.Placed P) : Placed P (r.fail e) := by
  refine ⟨h.lists, h.operand, h.trivia, h.output, ?_⟩
  rintro e' ⟨⟩
  exact he

theorem malformed (h : Placed P r) (fault : SyntaxFault) (ht : P t.location) :
    Placed P (r.malformed fault t) :=
  h.fail (RuleError.placed_of_eq rfl ht)

theorem emit (h : Placed P r) (ht : P t.location) : Placed P (r.emit t) :=
  ⟨h.lists, h.operand, h.trivia, List.forall_mem_cons.mpr ⟨ht, h.output⟩, h.fault⟩

theorem hold (h : Placed P r) (token : Token) (ht : P token.location) (bound : Bool) :
    Placed P (r.hold token bound) := by
  refine ⟨h.lists, ?_, h.trivia, h.output, h.fault⟩
  rintro operand ⟨⟩
  exact ht

theorem withLists (h : Placed P r) {lists : List OpenList}
    (hlists : ∀ list ∈ lists, list.opening.Placed P) : Placed P { r with lists } :=
  ⟨hlists, h.operand, h.trivia, h.output, h.fault⟩

theorem settle (h : Placed P r) : Placed P r.settle := by
  unfold OperandReader.settle
  split
  next => exact h
  next operand ho _ =>
    refine ⟨h.lists, nofun, nofun, ?_, h.fault⟩
    intro u hu
    rcases List.mem_append.mp hu with hu | hu
    · exact h.trivia u hu
    · rcases List.mem_cons.mp hu with rfl | hu
      · exact h.operand operand ho
      · exact h.output u hu
  next operand list lists ho hl =>
    obtain ⟨hlist, hlists⟩ := List.forall_mem_cons.mp (hl ▸ h.lists)
    exact ⟨List.forall_mem_cons.mpr ⟨hlist, hlists⟩, nofun, nofun, h.output, h.fault⟩

theorem openList (h : Placed P r) {opening : Opening} (ho : opening.Placed P)
    (ht : P t.location) : Placed P (openList scope r opening t) := by
  unfold OperandReader.openList
  split
  next => exact h.malformed _ ht
  next => exact ⟨List.forall_mem_cons.mpr ⟨ho, h.lists⟩, nofun, nofun, h.output, h.fault⟩

theorem closeList (h : Placed P r) {list : OpenList} (hlist : list.opening.Placed P)
    (ht : P t.location) : Placed P (closeList r list t) := by
  unfold OperandReader.closeList
  split
  next => exact h.malformed _ ht
  next =>
    split
    next token hc =>
      have htail := h.withLists fun l hl => h.lists l (List.mem_of_mem_tail hl)
      exact htail.hold _ (hlist.complete hc) true
    next e hc => exact h.fail (hlist.complete_error hc)

theorem startValue (h : Placed P r) (ht : P t.location) : Placed P (startValue scope r t) := by
  unfold OperandReader.startValue
  split
  next => exact h.openList ht ht
  next =>
    split
    next => exact h.openList ht ht
    next => exact h.fail (RuleError.placed_of_eq rfl ht)
  next =>
    split
    next => exact h.hold (.resolved _ _ _) ht true
    next =>
      split
      next => exact h.hold _ ht false
      next => exact h.fail (RuleError.placed_of_eq rfl ht)
  next => exact h.hold _ ht true
  next => exact h.hold (.resolved _ _ _) ht true

theorem startCall (h : Placed P r) {operand : Operand} (ho : P operand.token.location)
    (ht : P t.location) : Placed P (startCall scope r operand t) := by
  unfold OperandReader.startCall
  split
  next => exact h.fail (RuleError.placed_of_eq rfl ho)
  next =>
    split
    next => exact h.openList ⟨ht, ho⟩ ht
    next => exact h.fail (RuleError.placed_of_eq rfl ht)

theorem readInList (h : Placed P r) {list : OpenList} {lists : List OpenList}
    (hl : r.lists = list :: lists) (ht : P t.location) :
    Placed P (readInList scope r list lists t) := by
  obtain ⟨hlist, hlists⟩ := List.forall_mem_cons.mp (hl ▸ h.lists)
  unfold OperandReader.readInList
  split
  next => exact h.closeList hlist ht
  next =>
    split
    next =>
      split
      next => exact h.malformed _ ht
      next => exact h.startValue ht
    next =>
      split
      next => exact h.withLists (List.forall_mem_cons.mpr ⟨hlist, hlists⟩)
      next => exact h.malformed _ ht

theorem readToken (h : Placed P r) (ht : P t.location) : Placed P (readToken scope r t) := by
  unfold OperandReader.readToken
  split
  next list lists hl => exact h.readInList hl ht
  next =>
    split
    next => exact h.startValue ht
    next => exact h.emit ht

theorem readTrivia (h : Placed P r) (ht : P t.location) : Placed P (r.readTrivia t) := by
  unfold OperandReader.readTrivia
  split
  next => exact h.emit ht
  next =>
    exact ⟨h.lists, h.operand, List.forall_mem_cons.mpr ⟨ht, h.trivia⟩, h.output, h.fault⟩
  next => exact h

theorem step (h : Placed P r) (ht : P t.location) : Placed P (step scope r t) := by
  unfold OperandReader.step
  split
  next => exact h
  next =>
    split
    next => exact h.readTrivia ht
    next =>
      split
      next operand _ ho => exact h.startCall (h.operand operand ho) ht
      next => exact h.settle.readToken ht

theorem run (h : Placed P r) (scope : Scope) (hts : ∀ t ∈ ts, P t.location) :
    Placed P (run scope r ts) := by
  induction ts generalizing r with
  | nil => exact h
  | cons t ts ih =>
    obtain ⟨ht, hts⟩ := List.forall_mem_cons.mp hts
    exact ih (h.step ht) hts

theorem finish (h : Placed P r) : Placed P r.finish := by
  unfold OperandReader.finish
  split
  next => exact h
  next =>
    split
    next => exact h.settle
    next => exact h.fail (RuleError.placed_of_none rfl)

end Placed

end OperandReader

/-- Tokens that are worked out stand where tokens of the rule stood, and so does their error. -/
theorem Operands.ofTokens_placed (scope : Scope) {ts : List Token}
    (hts : ∀ t ∈ ts, P t.location) :
    (∀ t ∈ (Operands.ofTokens scope ts).tokens, P t.location) ∧
      ∀ e, (Operands.ofTokens scope ts).fault = some e → e.Placed P := by
  have hplaced := (OperandReader.placed_start.run scope hts).finish
  exact ⟨fun t ht => hplaced.output t (List.mem_reverse.mp ht), hplaced.fault⟩

end Verdict
