import Verdict.Proofs.Operands.Spelling

namespace Verdict

theorem Opening.startsValue_closer (opening : Opening) : opening.closer.startsValue = false := by
  cases opening <;> rfl

theorem Opening.isTrivia_closer (opening : Opening) : opening.closer.isTrivia = false := by
  cases opening <;> rfl

theorem Opening.closer_ne_method (opening : Opening) : opening.closer ≠ .method := by
  cases opening <;> nofun

theorem Opening.closer_ne_comma (opening : Opening) : opening.closer ≠ .comma := by
  cases opening <;> nofun

theorem Opening.complete_carries {o : Opening} {items : List Value} {token : Token}
    (h : o.complete items = .ok token) : token.kind.group = .value ∧ token.value ≠ none := by
  have hresolved : ∀ (v : Value) (raw : String) (location : Location),
      (Token.resolved v raw location).kind.group = .value ∧
        (Token.resolved v raw location).value ≠ none :=
    fun v _ _ => ⟨TokenKind.group_ofValue v, nofun⟩
  cases o with
  | array opener =>
    cases h
    exact hresolved _ _ _
  | function f opener =>
    simp only [complete] at h
    split at h
    next =>
      cases h
      exact hresolved _ _ _
    next => cases h
  | method f opener receiver =>
    simp only [complete] at h
    split at h
    next =>
      cases h
      exact hresolved _ _ _
    next => cases h

namespace OperandReader

variable {scope : Scope} {r : OperandReader} {t : Token}

/-- Reads tokens from left to right. -/
def run (scope : Scope) (r : OperandReader) (ts : List Token) : OperandReader :=
  ts.foldl (step scope) r

@[simp] theorem run_nil : run scope r [] = r := rfl

@[simp] theorem run_cons (ts : List Token) :
    run scope r (t :: ts) = run scope (step scope r t) ts := rfl

theorem run_append (ts us : List Token) :
    run scope r (ts ++ us) = run scope (run scope r ts) us :=
  List.foldl_append

theorem step_of_fault (h : r.fault.isSome) : step scope r t = r := by
  simp [step, h]

theorem run_of_fault (h : r.fault.isSome) (ts : List Token) : run scope r ts = r := by
  induction ts with
  | nil => rfl
  | cons t ts ih => rw [run_cons, step_of_fault h, ih]

theorem fault_of_run (ts : List Token) (h : (run scope r ts).fault = none) : r.fault = none := by
  cases hr : r.fault with
  | none => rfl
  | some e =>
    rw [run_of_fault (by simp [hr]), hr] at h
    cases h

theorem finish_of_fault (h : r.fault.isSome) : r.finish = r := by
  simp [finish, h]

theorem run_of_finish (h : r.finish.fault = none) :
    r.fault = none ∧ r.lists = [] ∧ r.finish = r.settle := by
  unfold finish at h ⊢
  split at h
  next hs => simp [h] at hs
  next hs =>
    rw [if_neg hs]
    split at h
    next hl => exact ⟨by simpa using hs, hl, rfl⟩
    next => cases h

/-- The next token may start a value. -/
structure Ready (r : OperandReader) : Prop where
  fault : r.fault = none
  operand : r.operand = none
  trivia : r.trivia = []
  comma : ∀ list ∈ r.lists.head?, list.commaExpected = false

theorem settle_of_operand_none (h : r.operand = none) : r.settle = r := by
  simp [settle, h]

theorem operand_settle : r.settle.operand = none := by
  unfold settle
  split
  next h => exact h
  next => rfl
  next => rfl

theorem length_lists_settle : r.settle.lists.length = r.lists.length := by
  unfold settle
  split
  next => rfl
  next hl => rfl
  next hl => rw [hl]; rfl

theorem step_trivia (hf : r.fault = none) (ht : t.isTrivia = true) :
    step scope r t = r.readTrivia t := by
  simp [step, hf, ht]

theorem step_significant (hf : r.fault = none) (ht : t.isTrivia = false)
    (hm : t.kind = .method → r.operand = none) :
    step scope r t = readToken scope r.settle t := by
  simp only [step, hf, ht]
  split
  next h => cases h
  next =>
    split
    next h => cases h
    next =>
      split
      next operand hk ho => simp [hm hk] at ho
      next => rfl

theorem step_method {operand : Operand} (hf : r.fault = none) (ho : r.operand = some operand)
    (hk : t.kind = .method) : step scope r t = startCall scope r operand t := by
  simp [step, hf, Token.isTrivia, hk, ho, TokenKind.isTrivia]

theorem step_start (hr : r.Ready) (ht : t.kind.startsValue = true) :
    step scope r t = startValue scope r t := by
  have htr : t.isTrivia = false := TokenKind.isTrivia_of_startsValue ht
  rw [step_significant hr.fault htr (fun _ => hr.operand), settle_of_operand_none hr.operand]
  unfold readToken
  split
  next list lists hl =>
    have hc : list.commaExpected = false := hr.comma list (by simp [hl])
    have hk : t.kind ≠ list.opening.closer :=
      TokenKind.ne_of_startsValue ht list.opening.startsValue_closer
    simp [readInList, hk, ht, hc]
  next => simp [ht]

theorem step_emit (hf : r.fault = none) (ho : r.operand = none) (hl : r.lists = [])
    (ht : t.kind.startsValue = false) : step scope r t = r.emit t := by
  cases htr : t.isTrivia with
  | true => simp [step_trivia hf htr, readTrivia, hl, ho]
  | false =>
    rw [step_significant hf htr (fun _ => ho), settle_of_operand_none ho]
    simp [readToken, hl, ht]

theorem run_gap_inside (hf : r.fault = none) (hl : r.lists ≠ []) {g : List Token} (hg : Gap g) :
    run scope r g = r := by
  induction g with
  | nil => rfl
  | cons t g ih =>
    have hstep : step scope r t = r := by
      obtain ⟨list, lists, hl⟩ := List.exists_cons_of_ne_nil hl
      simp [step_trivia hf (hg t (by simp)), readTrivia, hl]
    rw [run_cons, hstep]
    exact ih (fun u hu => hg u (List.mem_cons_of_mem t hu))

/-- What separates an operand from the next token is kept aside, or dropped inside a list. -/
theorem run_gap_held (hf : r.fault = none) {operand : Operand} (ho : r.operand = some operand)
    {g : List Token} (hg : Gap g) :
    run scope r g =
      { r with trivia := if r.lists = [] then g.reverse ++ r.trivia else r.trivia } := by
  by_cases hl : r.lists = []
  · induction g generalizing r with
    | nil =>
      cases r
      simp_all
    | cons t g ih =>
      have hstep : step scope r t = { r with trivia := t :: r.trivia } := by
        simp [step_trivia hf (hg t (by simp)), readTrivia, hl, ho]
      rw [run_cons, hstep,
        ih (r := { r with trivia := t :: r.trivia }) hf ho (fun u hu => hg u (by simp [hu])) hl]
      simp [hl]
  · rw [run_gap_inside hf hl hg]
    simp [hl]

theorem openList_ok {opening : Opening} (hd : r.lists.length < scope.maxDepth) :
    openList scope r opening t =
      { r with lists := ⟨opening, [], false⟩ :: r.lists, operand := none, trivia := [] } := by
  simp [openList, Nat.not_le.mpr hd]

theorem openList_of_fault {opening : Opening} (h : (openList scope r opening t).fault = none) :
    r.lists.length < scope.maxDepth ∧ openList scope r opening t =
      { r with lists := ⟨opening, [], false⟩ :: r.lists, operand := none, trivia := [] } := by
  unfold openList at h ⊢
  split at h
  next => cases h
  next hd => exact ⟨by omega, by rw [if_neg hd]⟩

theorem startCall_of_fault {operand : Operand} (h : (startCall scope r operand t).fault = none) :
    ∃ f, operand.bound = true ∧ scope.registry.method? t.callee = some f ∧
      r.lists.length < scope.maxDepth ∧ startCall scope r operand t =
        { r with
          lists := ⟨.method f t operand.token, [], false⟩ :: r.lists
          operand := none
          trivia := [] } := by
  unfold startCall at h ⊢
  split at h
  next => cases h
  next hb =>
    rw [if_neg hb]
    split at h
    next f hf => exact ⟨f, by simpa using hb, hf, openList_of_fault h⟩
    next => cases h

theorem closeList_of_fault {list : OpenList} (h : (closeList r list t).fault = none) :
    (list.commaExpected = true ∨ list.items = []) ∧
      ∃ token, closeList r list t = { r with lists := r.lists.tail }.hold token true := by
  unfold closeList at h ⊢
  split at h
  next => cases h
  next hc =>
    rw [if_neg hc]
    refine ⟨by simpa [Classical.or_iff_not_imp_left] using hc, ?_⟩
    split at h
    next token _ => exact ⟨token, rfl⟩
    next => cases h

theorem output_openList (opening : Opening) :
    (openList scope r opening t).output = r.output := by
  unfold openList
  split <;> rfl

theorem output_closeList (list : OpenList) : (closeList r list t).output = r.output := by
  unfold closeList
  split
  next => rfl
  next => split <;> rfl

theorem output_startValue : (startValue scope r t).output = r.output := by
  unfold startValue
  split
  next => exact output_openList _
  next =>
    split
    next => exact output_openList _
    next => rfl
  next =>
    split
    next => rfl
    next => split <;> rfl
  next => rfl
  next => rfl

theorem output_startCall (operand : Operand) :
    (startCall scope r operand t).output = r.output := by
  unfold startCall
  split
  next => rfl
  next =>
    split
    next => exact output_openList _
    next => rfl

theorem output_readInList {list : OpenList} {lists : List OpenList} :
    (readInList scope r list lists t).output = r.output := by
  unfold readInList
  split
  next => exact output_closeList list
  next =>
    split
    next =>
      split
      next => rfl
      next => exact output_startValue
    next => split <;> rfl

/-- What has been passed on stays. -/
theorem output_suffix_settle : r.output <:+ r.settle.output := by
  unfold settle
  split
  next => exact List.suffix_rfl
  next operand _ _ => exact (List.suffix_cons operand.token r.output).trans (List.suffix_append ..)
  next => exact List.suffix_rfl

theorem output_suffix_readToken : r.output <:+ (readToken scope r t).output := by
  unfold readToken
  split
  next => simp only [output_readInList, List.suffix_rfl]
  next =>
    split
    next => simp only [output_startValue, List.suffix_rfl]
    next => exact List.suffix_cons t r.output

theorem output_suffix_step : r.output <:+ (step scope r t).output := by
  unfold step
  split
  next => exact List.suffix_rfl
  next =>
    split
    next =>
      unfold readTrivia
      split
      next => exact List.suffix_cons t r.output
      next => exact List.suffix_rfl
      next => exact List.suffix_rfl
    next =>
      split
      next operand _ _ =>
        simp only [output_startCall, List.suffix_rfl]
      next => exact output_suffix_settle.trans output_suffix_readToken

theorem output_suffix_finish : r.output <:+ r.finish.output := by
  unfold finish
  split
  next => exact List.suffix_rfl
  next =>
    split
    next => exact output_suffix_settle
    next => exact List.suffix_rfl

end OperandReader

end Verdict
