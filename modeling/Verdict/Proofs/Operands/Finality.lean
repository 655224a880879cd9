import Verdict.Call.Functions
import Verdict.Proofs.Formula.Acceptance
import Verdict.Proofs.Formula.Placement
import Verdict.Proofs.Operands.Reading

namespace Verdict

namespace OperandReader

variable {scope : Scope} {maxDepth : Nat} {r s : OperandReader} {t : Token} {ts : List Token}

/-- The operand that is kept is a value, or else a variable that is not bound. -/
structure Held (r : OperandReader) : Prop where
  trivia : Gap r.trivia
  group : ∀ operand, r.operand = some operand → operand.token.kind.group = .value
  unbound : ∀ operand, r.operand = some operand → operand.token.value = none →
    operand.token.kind = .identifier ∧ operand.bound = false ∧ r.lists = []

namespace Held

theorem of_operand_none (htrivia : Gap r.trivia) (ho : r.operand = none) : Held r :=
  ⟨htrivia, fun _ h => by simp [ho] at h, fun _ h => by simp [ho] at h⟩

theorem fail (h : Held r) (e : RuleError) : Held (r.fail e) :=
  ⟨h.trivia, h.group, h.unbound⟩

theorem hold (htrivia : Gap r.trivia) {token : Token} {bound : Bool}
    (hg : token.kind.group = .value)
    (hv : token.value = none → token.kind = .identifier ∧ bound = false ∧ r.lists = []) :
    Held (r.hold token bound) := by
  refine ⟨htrivia, ?_, ?_⟩
  · rintro operand ⟨⟩
    exact hg
  · rintro operand ⟨⟩
    exact hv

theorem settle (h : Held r) : Held r.settle := by
  unfold OperandReader.settle
  split
  next => exact h
  next => exact .of_operand_none .nil rfl
  next => exact .of_operand_none .nil rfl

theorem openList (h : Held r) (opening : Opening) : Held (openList scope r opening t) := by
  unfold OperandReader.openList
  split
  next => exact h.fail _
  next => exact .of_operand_none .nil rfl

theorem closeList (h : Held r) (list : OpenList) : Held (closeList r list t) := by
  unfold OperandReader.closeList
  split
  next => exact h.fail _
  next =>
    split
    next token htoken =>
      obtain ⟨hg, hv⟩ := Opening.complete_carries htoken
      exact hold (r := { r with lists := r.lists.tail }) h.trivia hg fun hnone => absurd hnone hv
    next => exact h.fail _

theorem startValue (h : Held r) (ht : t.kind.startsValue = true) :
    Held (startValue scope r t) := by
  have hresolved : ∀ v, Held (r.hold (.resolved v t.raw t.location) true) :=
    fun v => hold h.trivia (TokenKind.group_ofValue v) nofun
  unfold OperandReader.startValue
  split
  next => exact h.openList _
  next =>
    split
    next => exact h.openList _
    next => exact h.fail _
  next hk hv =>
    split
    next v _ => exact hresolved v
    next =>
      split
      next hl => exact hold h.trivia (by rw [hk]; rfl) fun _ => ⟨hk, rfl, by simpa using hl⟩
      next => exact h.fail _
  next v hv hb hf =>
    have hg : t.kind.group = .value := by
      have hkinds := ht
      simp only [TokenKind.startsValue, Bool.or_eq_true, beq_iff_eq] at hkinds
      exact (hkinds.resolve_right hf).resolve_right hb
    exact hold h.trivia hg fun hnone => by simp [hv] at hnone
  next => exact hresolved _

theorem startCall (h : Held r) (operand : Operand) : Held (startCall scope r operand t) := by
  unfold OperandReader.startCall
  split
  next => exact h.fail _
  next =>
    split
    next => exact h.openList _
    next => exact h.fail _

theorem readToken (h : Held r) (ho : r.operand = none) : Held (readToken scope r t) := by
  unfold OperandReader.readToken readInList
  split
  next list lists _ =>
    split
    next => exact h.closeList list
    next =>
      split
      next ht =>
        split
        next => exact h.fail _
        next => exact h.startValue ht
      next =>
        split
        next => exact .of_operand_none h.trivia ho
        next => exact h.fail _
  next =>
    split
    next ht => exact h.startValue ht
    next => exact .of_operand_none h.trivia ho

theorem step (h : Held r) : Held (step scope r t) := by
  unfold OperandReader.step
  split
  next => exact h
  next =>
    split
    next ht =>
      unfold readTrivia
      split
      next => exact ⟨h.trivia, h.group, h.unbound⟩
      next => exact ⟨h.trivia.cons ht, h.group, h.unbound⟩
      next => exact h
    next =>
      split
      next operand _ _ => exact h.startCall operand
      next => exact h.settle.readToken operand_settle

theorem run (scope : Scope) (h : Held r) (ts : List Token) : Held (run scope r ts) := by
  induction ts generalizing r with
  | nil => exact h
  | cons t ts ih => exact ih h.step

end Held

theorem held_start : Held start := .of_operand_none .nil rfl

/-- What the builder has made of the tokens that the reader has passed on. -/
def built (maxDepth : Nat) (r : OperandReader) : Except RuleError FormulaBuilder :=
  r.output.reverse.foldlM FormulaBuilder.step (.start maxDepth)

theorem built_eq_of_suffix {b : FormulaBuilder} (h : r.output <:+ s.output)
    (hs : s.built maxDepth = .ok b) : ∃ before, r.built maxDepth = .ok before := by
  obtain ⟨later, hlater⟩ := h
  unfold built at hs ⊢
  rw [← hlater, List.reverse_append, List.foldlM_append] at hs
  cases hr : r.output.reverse.foldlM FormulaBuilder.step (.start maxDepth) with
  | ok before => exact ⟨before, rfl⟩
  | error e =>
    rw [hr] at hs
    cases hs

/-- The rule is in error, however it goes on: the reader has failed; or the builder has; or a value
is being read where the builder asks for an operator; or the variable that is kept is not bound. -/
inductive Doomed (maxDepth : Nat) (r : OperandReader) : Prop
  | failed : r.fault.isSome → Doomed maxDepth r
  | refused : (∀ b, r.built maxDepth ≠ .ok b) → Doomed maxDepth r
  | misplaced {b : FormulaBuilder} : r.built maxDepth = .ok b → b.operatorRequired = true →
    r.lists ≠ [] ∨ r.operand ≠ none → Doomed maxDepth r
  | unbound {operand : Operand} : r.operand = some operand → operand.token.value = none →
    Doomed maxDepth r

section Doomed

theorem refused_of_suffix (h : ∀ b, r.built maxDepth ≠ .ok b) (hout : r.output <:+ s.output) :
    ∀ b, s.built maxDepth ≠ .ok b := by
  intro b hb
  obtain ⟨before, hbefore⟩ := built_eq_of_suffix hout hb
  exact h before hbefore

theorem refused_settle {operand : Operand} (ho : r.operand = some operand) (hl : r.lists = [])
    (hstep : ∀ b after, r.built maxDepth = .ok b → b.step operand.token ≠ .ok after) :
    ∀ b, r.settle.built maxDepth ≠ .ok b := by
  intro b hb
  have hout : r.settle.output = r.trivia ++ operand.token :: r.output := by
    simp [OperandReader.settle, ho, hl]
  unfold built at hb hstep
  rw [hout, List.reverse_append, List.reverse_cons, List.foldlM_append, List.foldlM_append] at hb
  cases hbuilt : r.output.reverse.foldlM FormulaBuilder.step (.start maxDepth) with
  | error e => simp [hbuilt, bind, Except.bind] at hb
  | ok before =>
    cases hnext : before.step operand.token with
    | error e => simp [hbuilt, hnext, bind, Except.bind] at hb
    | ok after => exact hstep before after hbuilt hnext

/-- A list that is open stays open, or its value is kept. -/
theorem pending_readInList {list : OpenList} {lists : List OpenList} (hl : r.lists = list :: lists)
    (hf : (readInList scope r list lists t).fault = none) :
    (readInList scope r list lists t).lists ≠ [] ∨
      (readInList scope r list lists t).operand ≠ none := by
  have hopen : r.lists ≠ [] := by simp [hl]
  have hlists : ∀ opening, (openList scope r opening t).lists ≠ [] := by
    intro opening
    unfold openList
    split
    next => exact hopen
    next => exact List.cons_ne_nil _ _
  unfold readInList at hf ⊢
  split at hf
  next hc =>
    obtain ⟨_, token, hclose⟩ := closeList_of_fault hf
    rw [if_pos hc, hclose]
    exact .inr nofun
  next hc =>
    rw [if_neg hc]
    split at hf
    next hs =>
      rw [if_pos hs]
      refine .inl ?_
      split
      next => exact hopen
      next =>
        unfold startValue
        split
        next => exact hlists _
        next => split; exacts [hlists _, hopen]
        next => split; exacts [hopen, by split <;> exact hopen]
        next => exact hopen
        next => exact hopen
    next hs =>
      rw [if_neg hs]
      refine .inl ?_
      split
      next => exact List.cons_ne_nil _ _
      next => exact hopen

theorem step_value_of_operatorRequired {b after : FormulaBuilder} (hg : t.kind.group = .value)
    (hr : b.operatorRequired = true) : b.step t ≠ .ok after := by
  intro h
  simp [FormulaBuilder.step_value hg, FormulaBuilder.pushValue, hr, bind, Except.bind] at h

theorem step_value_of_unbound {b after : FormulaBuilder} (hk : t.kind = .identifier)
    (hv : t.value = none) : b.step t ≠ .ok after := by
  have hg : t.kind.group = .value := by
    rw [hk]
    rfl
  intro h
  by_cases hr : b.operatorRequired = true
  · exact step_value_of_operatorRequired hg hr h
  · simp [FormulaBuilder.step_value hg, FormulaBuilder.pushValue, FormulaBuilder.valueOf, hr, hv,
      hk, bind, Except.bind] at h

/-- While a value is read at a wrong place, nothing is passed on before it. -/
theorem misplaced_step {b : FormulaBuilder} (hr : r.Held) (hf : r.fault = none)
    (hb : r.built maxDepth = .ok b) (hreq : b.operatorRequired = true)
    (hp : r.lists ≠ [] ∨ r.operand ≠ none) : Doomed maxDepth (step scope r t) := by
  have hsame : ∀ s : OperandReader, s.output = r.output → s.built maxDepth = .ok b := by
    intro s hs
    rw [built, hs]
    exact hb
  by_cases hfailed : (step scope r t).fault.isSome
  · exact .failed hfailed
  have hfault : (step scope r t).fault = none := by simpa using hfailed
  cases ht : t.isTrivia with
  | true =>
    rw [step_trivia hf ht]
    unfold readTrivia
    split
    next hl ho => simp [hl, ho] at hp
    next hl ho => exact .misplaced (hsame _ rfl) hreq (.inr (by simp [ho]))
    next hl => exact .misplaced hb hreq (.inl (by simp [hl]))
  | false =>
    by_cases hm : t.kind = .method ∧ r.operand ≠ none
    · obtain ⟨hk, ho⟩ := hm
      obtain ⟨operand, ho⟩ := Option.ne_none_iff_exists'.mp ho
      rw [step_method hf ho hk] at hfault ⊢
      obtain ⟨f, _, _, _, hcall⟩ := startCall_of_fault hfault
      rw [hcall]
      exact .misplaced (hsame _ rfl) hreq (.inl (List.cons_ne_nil _ _))
    · have hm' : t.kind = .method → r.operand = none := by
        intro hk
        by_contra ho
        exact hm ⟨hk, ho⟩
      have hstep : step scope r t = readToken scope r.settle t := step_significant hf ht hm'
      cases hl : r.lists with
      | nil =>
        obtain ⟨operand, ho⟩ := Option.ne_none_iff_exists'.mp (hp.resolve_left (by simp [hl]))
        refine .refused (refused_of_suffix (refused_settle ho hl ?_) ?_)
        · intro before after hbefore
          cases hbefore.symm.trans hb
          exact step_value_of_operatorRequired (hr.group operand ho) hreq
        · rw [hstep]
          exact output_suffix_readToken
      | cons list lists =>
        obtain ⟨list', lists', hl'⟩ : ∃ list' lists', r.settle.lists = list' :: lists' := by
          have hlength := length_lists_settle (r := r)
          rw [hl] at hlength
          exact List.exists_cons_of_length_eq_add_one hlength
        have hout : r.settle.output = r.output := by
          unfold settle
          split
          next => rfl
          next h => simp [hl] at h
          next => rfl
        rw [hstep] at hfault ⊢
        simp only [readToken, hl'] at hfault ⊢
        refine .misplaced (hsame _ ?_) hreq (pending_readInList hl' hfault)
        rw [output_readInList, hout]

/-- A variable that is not bound is passed on to the builder, unless a method is called on it. -/
theorem unbound_step {operand : Operand} (hr : r.Held) (hf : r.fault = none)
    (ho : r.operand = some operand) (hv : operand.token.value = none) :
    Doomed maxDepth (step scope r t) := by
  obtain ⟨hk, hbound, hl⟩ := hr.unbound operand ho hv
  cases ht : t.isTrivia with
  | true =>
    have hstep : step scope r t = { r with trivia := t :: r.trivia } := by
      rw [step_trivia hf ht]
      simp only [readTrivia, hl, ho]
    rw [hstep]
    exact .unbound ho hv
  | false =>
    by_cases hm : t.kind = .method
    · rw [step_method hf ho hm]
      refine .failed ?_
      simp [startCall, hbound, OperandReader.fail]
    · rw [step_significant hf ht fun h => absurd h hm]
      refine .refused (refused_of_suffix (refused_settle ho hl ?_) output_suffix_readToken)
      intro before after _
      exact step_value_of_unbound hk hv

theorem Doomed.step (h : Doomed maxDepth r) (hr : r.Held) : Doomed maxDepth (step scope r t) := by
  by_cases hfailed : r.fault.isSome
  · rw [step_of_fault hfailed]
    exact h
  have hf : r.fault = none := by simpa using hfailed
  cases h with
  | failed h => simp [hf] at h
  | refused h => exact .refused (refused_of_suffix h output_suffix_step)
  | misplaced hb hreq hp => exact misplaced_step hr hf hb hreq hp
  | unbound ho hv => exact unbound_step hr hf ho hv

theorem Doomed.run (scope : Scope) (h : Doomed maxDepth r) (hr : r.Held) (ts : List Token) :
    Doomed maxDepth (run scope r ts) := by
  induction ts generalizing r with
  | nil => exact h
  | cons t ts ih => exact ih (h.step hr) hr.step

/-- A rule that is in error has no formula. -/
theorem Doomed.finish (h : Doomed maxDepth r) (hr : r.Held) {f : Formula} :
    Formula.ofOperands maxDepth ⟨r.finish.output.reverse, r.finish.fault⟩ ≠ .ok f := by
  intro hformula
  obtain ⟨hfault, b, hb, _⟩ := Formula.ofOperands_eq_ok_iff.mp hformula
  obtain ⟨hf, hl, hfinish⟩ := run_of_finish hfault
  have hb : r.settle.built maxDepth = .ok b := by
    rw [hfinish] at hb
    exact hb
  cases h with
  | failed h => simp [hf] at h
  | refused h => exact refused_of_suffix h output_suffix_settle b hb
  | misplaced hbefore hreq hp =>
    obtain ⟨operand, ho⟩ := Option.ne_none_iff_exists'.mp (hp.resolve_left (by simp [hl]))
    refine refused_settle ho hl (fun before after h => ?_) b hb
    cases h.symm.trans hbefore
    exact step_value_of_operatorRequired (hr.group operand ho) hreq
  | unbound ho hv =>
    obtain ⟨hk, _, _⟩ := hr.unbound _ ho hv
    exact refused_settle ho hl (fun _ _ _ => step_value_of_unbound hk hv) b hb

/-- What is still kept at the end is passed on last. The only errors at a place that it can give are
that it stands where an operator has to, and that it is not bound. -/
theorem doomed_of_operand {b : FormulaBuilder} {operand : Operand} {e : RuleError} (hr : r.Held)
    (hb : r.built maxDepth = .ok b) (ho : r.operand = some operand)
    (h : Formula.ofOperands maxDepth ⟨(r.trivia ++ operand.token :: r.output).reverse, none⟩ =
      .error e) (he : e.location? ≠ none) : Doomed maxDepth r := by
  cases hv : operand.token.value with
  | none => exact .unbound ho hv
  | some v =>
    cases hreq : b.operatorRequired with
    | true => exact .misplaced hb hreq (.inr (by simp [ho]))
    | false =>
      refine absurd ?_ he
      have hvalue : FormulaBuilder.valueOf operand.token = .ok v := by
        simp [FormulaBuilder.valueOf, hv]
      have hstep := FormulaBuilder.step_value_ok (hr.group operand ho) hreq hvalue
      unfold Formula.ofOperands at h
      rw [List.reverse_append, List.reverse_cons, List.append_assoc, foldlM_append_ok hb,
        List.singleton_append, List.foldlM_cons, hstep] at h
      cases hreduce : (b.held v).reduce with
      | error e' =>
        rw [hreduce] at h
        cases h
        exact FormulaBuilder.location_of_reduce hreduce
      | ok after =>
        have htrivia : r.trivia.reverse.foldlM FormulaBuilder.step after = .ok after := by
          have hgap : r.trivia.reverse.filter (!·.isTrivia) = [] := by
            simpa [Gap] using hr.trivia
          rw [FormulaBuilder.run_significant, hgap]
          rfl
        rw [hreduce] at h
        simp only [bind, Except.bind, htrivia] at h
        exact FormulaBuilder.location_of_finish h

/-- An error at a place dooms the rule; the others are those of a rule that ends too early, and of a
comparison that cannot be decided. -/
theorem doomed_of_error {e : RuleError} (hr : r.Held)
    (h : Formula.ofOperands maxDepth ⟨r.finish.output.reverse, r.finish.fault⟩ = .error e)
    (he : e.location? ≠ none) : Doomed maxDepth r := by
  by_cases hfailed : r.fault.isSome
  · exact .failed hfailed
  have hf : r.fault = none := by simpa using hfailed
  cases hb : r.built maxDepth with
  | error e' => exact .refused (by simp [hb])
  | ok b =>
    have hrun : r.output.reverse.foldlM FormulaBuilder.step (.start maxDepth) = .ok b := hb
    cases hl : r.lists with
    | cons list lists =>
      refine absurd ?_ he
      simp only [finish, hf, hl, fail, Formula.ofOperands, hrun, bind, Except.bind,
        Option.isSome_none, Bool.false_eq_true, if_false] at h
      cases h
      rfl
    | nil =>
      simp only [finish, hf, hl, Option.isSome_none, Bool.false_eq_true, if_false] at h
      cases ho : r.operand with
      | none =>
        refine absurd ?_ he
        simp only [settle_of_operand_none ho, hf, Formula.ofOperands, hrun, bind, Except.bind] at h
        exact FormulaBuilder.location_of_finish h
      | some operand =>
        simp only [settle, hl, ho, hf] at h
        exact doomed_of_operand hr hb ho h he

end Doomed

end OperandReader

/-- A rule with an error at a place is in error however it goes on. -/
theorem located_error_final (scope : Scope) (maxDepth : Nat) (ts us : List Token) (e : RuleError)
    (h : Formula.ofOperands maxDepth (Operands.ofTokens scope ts) = .error e)
    (he : e.location?.isSome) :
    ∃ e', Formula.ofOperands maxDepth (Operands.ofTokens scope (ts ++ us)) = .error e' := by
  let r := OperandReader.run scope .start ts
  have hr : r.Held := OperandReader.held_start.run scope ts
  have hdoomed : r.Doomed maxDepth :=
    OperandReader.doomed_of_error hr h (Option.isSome_iff_ne_none.mp he)
  cases hresult : Formula.ofOperands maxDepth (Operands.ofTokens scope (ts ++ us)) with
  | error e' => exact ⟨e', rfl⟩
  | ok f =>
    have hrun : OperandReader.run scope .start (ts ++ us) = OperandReader.run scope r us :=
      OperandReader.run_append ts us
    have hend : Formula.ofOperands maxDepth
        ⟨(OperandReader.run scope r us).finish.output.reverse,
          (OperandReader.run scope r us).finish.fault⟩ = .ok f := hrun ▸ hresult
    exact absurd hend ((hdoomed.run scope hr us).finish (hr.run scope us))

/-- Here the method call that follows works out the value before it, which is refused all the
same. -/
theorem located_error_final_call :
    let scope : Scope := ⟨.empty, .standard, 64⟩
    let a : Token := ⟨.string, "\"a\"", some (.string "a"), ⟨0, 0, 1⟩⟩
    let b : Token := ⟨.string, "\" b\"", some (.string " b"), ⟨4, 4, 1⟩⟩
    let call : List Token :=
      [⟨.method, ".trim(", none, ⟨8, 8, 1⟩⟩, ⟨.closeParen, ")", none, ⟨14, 14, 1⟩⟩]
    let e : RuleError := .malformed .missingOperator (some ⟨4, 4, 1⟩)
    Formula.ofOperands 64 (Operands.ofTokens scope [a, b]) = .error e ∧ e.location?.isSome ∧
      ∃ e', Formula.ofOperands 64 (Operands.ofTokens scope ([a, b] ++ call)) = .error e' := by
  intro scope a b call e
  have h : Formula.ofOperands 64 (Operands.ofTokens scope [a, b]) = .error e := rfl
  exact ⟨h, rfl, located_error_final scope 64 [a, b] call e h rfl⟩

end Verdict
