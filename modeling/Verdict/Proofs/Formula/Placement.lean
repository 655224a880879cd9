import Verdict.Formula.Builder
import Verdict.Proofs.Fold

namespace Verdict

variable {P : Location → Prop}

/-- The place that an error names, if it names one, is among some places. -/
def RuleError.Placed (P : Location → Prop) (e : RuleError) : Prop :=
  ∀ l, e.location? = some l → P l

theorem RuleError.placed_of_none {e : RuleError} (h : e.location? = none) : e.Placed P := by
  intro l hl
  cases h.symm.trans hl

theorem RuleError.placed_of_eq {e : RuleError} {l : Location} (h : e.location? = some l)
    (hl : P l) : e.Placed P := by
  intro l' hl'
  cases h.symm.trans hl'
  exact hl

namespace FormulaBuilder

variable {b : FormulaBuilder} {t : Token} {e : RuleError}

theorem location_of_reduce (h : b.reduce = .error e) : e.location? = none := by
  unfold reduce at h
  split at h
  next =>
    split at h
    next => cases h
    next =>
      cases h
      rfl
  next => cases h

theorem location_of_finish (h : b.finish = .error e) : e.location? = none := by
  unfold finish at h
  split at h
  next =>
    cases h
    rfl
  next =>
    split at h
    next =>
      cases h
      rfl
    next =>
      split at h
      next =>
        cases h
        rfl
      next => cases h

theorem location_of_pushValue (h : b.pushValue t = .error e) :
    e.location? = some t.location := by
  unfold pushValue at h
  split at h
  next =>
    cases h
    rfl
  next =>
    cases hv : valueOf t with
    | ok v =>
      rw [hv] at h
      cases h
    | error e' =>
      rw [hv] at h
      cases h
      unfold valueOf at hv
      split at hv
      next => cases hv
      next =>
        split at hv
        next =>
          cases hv
          rfl
        next => cases hv

theorem location_of_pushOperator {op : Comparison} (h : b.pushOperator op t = .error e) :
    e.location? = some t.location := by
  unfold pushOperator at h
  split at h
  next =>
    cases h
    rfl
  next =>
    split at h
    next =>
      cases h
      rfl
    next => cases h

theorem location_of_pushConnective {op : Connective} (h : b.pushConnective op t = .error e) :
    e.location? = some t.location := by
  unfold pushConnective at h
  split at h
  next =>
    cases h
    rfl
  next => cases h

theorem location_of_openGroup (h : b.openGroup t = .error e) :
    e.location? = some t.location := by
  unfold openGroup at h
  split at h
  next =>
    cases h
    rfl
  next =>
    split at h
    next =>
      cases h
      rfl
    next => cases h

theorem location_of_closeGroup (h : b.closeGroup t = .error e) :
    e.location? = some t.location := by
  unfold closeGroup at h
  split at h
  next =>
    cases h
    rfl
  next =>
    split at h
    next =>
      cases h
      rfl
    next =>
      split at h
      next =>
        cases h
        rfl
      next =>
        split at h
        next => cases h
        next =>
          cases h
          rfl

theorem location_of_step_value (h : (do (← b.pushValue t).reduce) = .error e) :
    e.location? = none ∨ e.location? = some t.location := by
  cases hpush : b.pushValue t with
  | error e' =>
    rw [hpush] at h
    cases h
    exact .inr (location_of_pushValue hpush)
  | ok held =>
    rw [hpush] at h
    exact .inl (location_of_reduce h)

theorem location_of_step (h : b.step t = .error e) :
    e.location? = none ∨ e.location? = some t.location := by
  unfold step at h
  split at h
  next => exact .inr (location_of_pushOperator h)
  next => exact .inr (location_of_pushConnective h)
  next => exact .inr (location_of_openGroup h)
  next => exact .inr (location_of_closeGroup h)
  iterate 9 next => exact location_of_step_value h
  iterate 3 next => cases h
  iterate 6 next =>
    cases h
    exact .inr rfl

end FormulaBuilder

/-- Where the tokens of a rule stand, and the error that ended the working out of its operands,
there stands the error of the rule. -/
theorem Formula.ofOperands_placed {maxDepth : Nat} {operands : Operands} {e : RuleError}
    (htokens : ∀ t ∈ operands.tokens, P t.location)
    (hfault : ∀ e, operands.fault = some e → e.Placed P)
    (h : ofOperands maxDepth operands = .error e) : e.Placed P := by
  unfold ofOperands at h
  cases hrun : operands.tokens.foldlM FormulaBuilder.step (.start maxDepth) with
  | error e' =>
    rw [hrun] at h
    cases h
    obtain ⟨before, t, after, b, htoks, _, hstep⟩ := foldlM_eq_error hrun
    have ht : t ∈ operands.tokens := by simp [htoks]
    rcases FormulaBuilder.location_of_step hstep with hnone | hlocation
    · exact RuleError.placed_of_none hnone
    · exact RuleError.placed_of_eq hlocation (htokens t ht)
  | ok b =>
    rw [hrun] at h
    cases hf : operands.fault with
    | some e' =>
      simp only [hf, bind, Except.bind] at h
      cases h
      exact hfault e hf
    | none =>
      simp only [hf, bind, Except.bind] at h
      exact RuleError.placed_of_none (FormulaBuilder.location_of_finish h)

end Verdict
