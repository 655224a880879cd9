import Verdict.Formula.Builder
import Verdict.Proofs.Fold
import Verdict.Proofs.Formula.Chain

namespace Verdict

namespace FormulaBuilder

/-- A builder that has read a value. -/
def held (b : FormulaBuilder) (v : Value) : FormulaBuilder :=
  { b with values := b.values ++ [v], operatorRequired := true, conditionIncomplete := false }

/-- A builder that has read and decided a comparison. -/
def decided (b : FormulaBuilder) (holds : Bool) : FormulaBuilder :=
  pushOperand { b with
    values := [], operator := none, operatorRequired := true, conditionIncomplete := false }
    (.leaf holds)

/-- A builder that has read a connective. -/
def joined (b : FormulaBuilder) (op : Connective) : FormulaBuilder :=
  { b with
    frames := b.frames.modifyHead fun frame => { frame with pending := some op }
    conditionIncomplete := true, operatorRequired := false }

theorem pushOperand_eq (b : FormulaBuilder) (operand : Formula) :
    b.pushOperand operand = { b with frames := b.frames.modifyHead (·.push operand) } := by
  unfold pushOperand
  split
  next hf => cases b; simp_all
  next hf => simp [hf]

/-- What a token makes of a builder that can read it, with all that the move asks for. What a run of
the builder keeps is read off these moves. -/
inductive Move (b : FormulaBuilder) (t : Token) : FormulaBuilder → Prop
  | trivia : t.isTrivia = true → Move b t b
  | value {v : Value} : t.kind.group = .value → b.operatorRequired = false → valueOf t = .ok v →
    (∀ left op, b.values = [left] → b.operator ≠ some op) → Move b t (b.held v)
  | comparison {left right : Value} {op : Comparison} {holds : Bool} :
    t.kind.group = .value → b.operatorRequired = false → valueOf t = .ok right →
    b.values = [left] → b.operator = some op → op.holds? left right = some holds →
    Move b t (b.decided holds)
  | operator {op : Comparison} : t.kind = .comparison op → b.operator = none → b.values ≠ [] →
    Move b t { b with operator := some op, operatorRequired := false }
  | connective {op : Connective} : t.kind = .connective op → b.operatorRequired = true →
    b.values = [] → Move b t (b.joined op)
  | opening : t.kind = .openParen → b.operatorRequired = false → b.values = [] →
    b.frames.length ≤ b.maxDepth →
    Move b t { b with opened := b.opened + 1, frames := ⟨none, none⟩ :: b.frames }
  | closing {inner : Formula} {pending : Option Connective} {frames : List Frame} :
    t.kind = .closeParen → b.closed < b.opened → b.operator = none → b.values = [] →
    b.conditionIncomplete = false → b.frames = ⟨some inner, pending⟩ :: frames →
    Move b t (pushOperand { b with closed := b.closed + 1, frames } (.group inner))

theorem step_value {b : FormulaBuilder} {t : Token} (hg : t.kind.group = .value) :
    b.step t = (do (← b.pushValue t).reduce) := by
  unfold step
  split <;> simp_all [TokenKind.group]

theorem step_value_ok {b : FormulaBuilder} {t : Token} {v : Value} (hg : t.kind.group = .value)
    (hr : b.operatorRequired = false) (hv : valueOf t = .ok v) : b.step t = (b.held v).reduce := by
  rw [step_value hg]
  simp [pushValue, hr, hv, held, bind, Except.bind, pure, Except.pure]

theorem reduce_held {b : FormulaBuilder} {left right : Value} {op : Comparison} {holds : Bool}
    (hl : b.values = [left]) (ho : b.operator = some op)
    (hh : op.holds? left right = some holds) : (b.held right).reduce = .ok (b.decided holds) := by
  simp [reduce, held, decided, hl, ho, hh]

theorem reduce_held_error {b : FormulaBuilder} {left right : Value} {op : Comparison}
    (hl : b.values = [left]) (ho : b.operator = some op) (hh : op.holds? left right = none) :
    (b.held right).reduce = .error (.badType (.expectedArray right.typeName) none) := by
  simp [reduce, held, hl, ho, hh]

theorem reduce_held_alone {b : FormulaBuilder} {v : Value}
    (h : ∀ left op, b.values = [left] → b.operator ≠ some op) :
    (b.held v).reduce = .ok (b.held v) := by
  unfold reduce
  split
  next left right op hv ho =>
    have hl : b.values ++ [v] = [left] ++ [right] := hv
    exact absurd ho (h left op (List.append_inj' hl rfl).1)
  next => rfl

theorem step_of_move {b after : FormulaBuilder} {t : Token} (h : Move b t after) :
    b.step t = .ok after := by
  cases h with
  | trivia ht =>
    unfold step
    split <;> simp_all [Token.isTrivia, TokenKind.isTrivia]
  | value hg hr hv hc => rw [step_value_ok hg hr hv, reduce_held_alone hc]
  | comparison hg hr hv hl ho hh => rw [step_value_ok hg hr hv, reduce_held hl ho hh]
  | operator hk ho hv => simp [step, hk, pushOperator, ho, hv]
  | connective hk hr hv =>
    cases hf : b.frames <;> simp [step, hk, pushConnective, hr, hv, joined, hf]
  | opening hk hr hv hd => simp [step, hk, openGroup, hr, hv, Nat.not_lt.mpr hd]
  | closing hk hc ho hv hi hf =>
    simp [step, hk, closeGroup, Nat.not_le.mpr hc, ho, hv, hi, hf]

theorem move_of_step_value {b after : FormulaBuilder} {t : Token} (hg : t.kind.group = .value)
    (h : b.step t = .ok after) : Move b t after := by
  by_cases hr : b.operatorRequired = true
  · simp [step_value hg, pushValue, hr, bind, Except.bind] at h
  have hr : b.operatorRequired = false := by simpa using hr
  cases hv : valueOf t with
  | error e => simp [step_value hg, pushValue, hr, hv, bind, Except.bind] at h
  | ok v =>
    rw [step_value_ok hg hr hv] at h
    by_cases hc : ∃ left op, b.values = [left] ∧ b.operator = some op
    · obtain ⟨left, op, hl, ho⟩ := hc
      cases hh : op.holds? left v with
      | none => rw [reduce_held_error hl ho hh] at h; cases h
      | some holds =>
        rw [reduce_held hl ho hh] at h
        cases Except.ok.inj h
        exact Move.comparison hg hr hv hl ho hh
    · have hc : ∀ left op, b.values = [left] → b.operator ≠ some op :=
        fun left op hl ho => hc ⟨left, op, hl, ho⟩
      rw [reduce_held_alone hc] at h
      cases Except.ok.inj h
      exact Move.value hg hr hv hc

theorem move_of_step {b after : FormulaBuilder} {t : Token} (h : b.step t = .ok after) :
    Move b t after := by
  by_cases hg : t.kind.group = .value
  · exact move_of_step_value hg h
  have hs := h
  unfold step at h
  split at h
  next op hk =>
    unfold pushOperator at h
    split at h
    next => cases h
    next ho =>
      split at h
      next => cases h
      next hv =>
        cases Except.ok.inj h
        exact Move.operator hk (by simpa using ho) (by simpa using hv)
  next op hk =>
    unfold pushConnective at h
    split at h
    next => cases h
    next hc =>
      simp only [Bool.or_eq_true, Bool.not_eq_true', not_or, Bool.not_eq_false,
        List.isEmpty_iff] at hc
      have hm : Move b t (b.joined op) := Move.connective hk hc.1 hc.2
      cases Except.ok.inj (hs.symm.trans (step_of_move hm))
      exact hm
  next hk =>
    unfold openGroup at h
    split at h
    next => cases h
    next hc =>
      simp only [Bool.or_eq_true, Bool.not_eq_true', not_or, Bool.not_eq_true, Bool.not_eq_false,
        List.isEmpty_iff] at hc
      split at h
      next => cases h
      next hd =>
        cases Except.ok.inj h
        exact Move.opening hk hc.1 hc.2 (by omega)
  next hk =>
    unfold closeGroup at h
    split at h
    next => cases h
    next hcl =>
      split at h
      next => cases h
      next hc =>
        simp only [Bool.or_eq_true, Bool.not_eq_true', not_or, Bool.not_eq_true, Bool.not_eq_false,
          Option.isSome_eq_false_iff, Option.isNone_iff_eq_none, List.isEmpty_iff] at hc
        split at h
        next => cases h
        next hi =>
          split at h
          next inner pending frames hf =>
            cases Except.ok.inj h
            exact Move.closing hk (by omega) hc.1 hc.2 (by simpa using hi) hf
          next => cases h
  iterate 9 next hk => simp [hk, TokenKind.group] at hg
  iterate 3 next hk =>
    cases Except.ok.inj h
    exact Move.trivia (by simp [Token.isTrivia, TokenKind.isTrivia, hk])
  iterate 6 next => cases h

theorem step_eq_ok_iff {b after : FormulaBuilder} {t : Token} :
    b.step t = .ok after ↔ Move b t after :=
  ⟨move_of_step, step_of_move⟩

theorem finish_eq_ok_iff {b : FormulaBuilder} {f : Formula} :
    b.finish = .ok f ↔ b.conditionIncomplete = false ∧ b.opened ≤ b.closed ∧ b.operator = none ∧
      b.values = [] ∧ (b.frames.head?.bind Frame.formula).getD .empty = f := by
  unfold finish
  constructor
  · intro h
    split at h
    next => cases h
    next hi =>
      split at h
      next => cases h
      next hc =>
        split at h
        next => cases h
        next ho =>
          simp only [Bool.or_eq_true, Bool.not_eq_true', not_or, Bool.not_eq_true,
            Bool.not_eq_false, Option.isSome_eq_false_iff, Option.isNone_iff_eq_none,
            List.isEmpty_iff] at ho
          exact ⟨by simpa using hi, by omega, ho.1, ho.2, Except.ok.inj h⟩
  · rintro ⟨hi, hc, ho, hv, rfl⟩
    simp [hi, Nat.not_lt.mpr hc, ho, hv]

/-- Every frame holds a chain, if it holds anything. -/
def Shaped (b : FormulaBuilder) : Prop :=
  ∀ frame ∈ b.frames, ∀ f, frame.formula = some f → f.Chained

end FormulaBuilder

theorem Frame.push_chained {frame : Frame} {operand : Formula} (ho : operand.IsOperand)
    (hc : operand.Chained) (hf : ∀ f, frame.formula = some f → f.Chained) {f : Formula}
    (h : (frame.push operand).formula = some f) : f.Chained := by
  unfold Frame.push at h
  split at h
  next left op hl hp =>
    cases Option.some.inj h
    exact Formula.Chained.binary (hf left hl) hc ho
  next =>
    cases Option.some.inj h
    exact hc

namespace FormulaBuilder

theorem pushOperand_shaped {b : FormulaBuilder} {operand : Formula} (ho : operand.IsOperand)
    (hc : operand.Chained) (hb : b.Shaped) : (b.pushOperand operand).Shaped := by
  unfold pushOperand
  split
  next => exact hb
  next frame frames hf =>
    have hb' : ∀ fr ∈ frame :: frames, ∀ f, fr.formula = some f → f.Chained := hf ▸ hb
    intro fr hfr f h
    rcases List.mem_cons.mp hfr with rfl | hfr
    · exact Frame.push_chained ho hc (hb' frame (by simp)) h
    · exact hb' fr (List.mem_cons_of_mem frame hfr) f h

theorem Move.shaped {b after : FormulaBuilder} {t : Token} (hb : b.Shaped)
    (h : Move b t after) : after.Shaped := by
  cases h with
  | trivia => exact hb
  | value => exact hb
  | @comparison left right op holds =>
    exact pushOperand_shaped trivial (.leaf holds) hb
  | operator => exact hb
  | @connective op =>
    intro frame hf f h
    cases hfr : b.frames with
    | nil => simp [joined, hfr] at hf
    | cons top rest =>
      simp only [joined, hfr, List.modifyHead_cons, List.mem_cons] at hf
      rcases hf with rfl | hf
      · exact hb top (by simp [hfr]) f h
      · exact hb frame (by simp [hfr, hf]) f h
  | opening =>
    intro frame hf f h
    rcases List.mem_cons.mp hf with rfl | hf
    · cases h
    · exact hb frame hf f h
  | @closing inner pending frames hk hcl ho hv hi hf =>
    have hinner : inner.Chained := hb ⟨some inner, pending⟩ (by simp [hf]) inner rfl
    refine pushOperand_shaped trivial (.group hinner) ?_
    intro frame hfr
    exact hb frame (hf ▸ List.mem_cons_of_mem _ hfr)

end FormulaBuilder

namespace Formula

theorem ofOperands_eq_ok_iff {maxDepth : Nat} {operands : Operands} {f : Formula} :
    ofOperands maxDepth operands = .ok f ↔ operands.fault = none ∧
      ∃ b, operands.tokens.foldlM FormulaBuilder.step (.start maxDepth) = .ok b ∧
        b.finish = .ok f := by
  unfold ofOperands
  cases operands.tokens.foldlM FormulaBuilder.step (.start maxDepth) with
  | error e => simp [bind, Except.bind]
  | ok b => cases operands.fault <;> simp [bind, Except.bind]

theorem ofOperands_eq_ok_iff_ofTokens {maxDepth : Nat} {operands : Operands} {f : Formula} :
    ofOperands maxDepth operands = .ok f ↔
      operands.fault = none ∧ ofTokens maxDepth operands.tokens = .ok f := by
  rw [ofTokens, ofOperands_eq_ok_iff, ofOperands_eq_ok_iff]
  simp

theorem ofOperands_shaped {maxDepth : Nat} {operands : Operands} {f : Formula}
    (h : ofOperands maxDepth operands = .ok f) : f.Shaped := by
  obtain ⟨_, b, hrun, hfinish⟩ := ofOperands_eq_ok_iff.mp h
  have hb : b.Shaped := by
    refine foldlM_keeps (fun _ _ _ hp hs => (FormulaBuilder.move_of_step hs).shaped hp) ?_ hrun
    simp [FormulaBuilder.Shaped, FormulaBuilder.start]
  obtain ⟨_, _, _, _, rfl⟩ := FormulaBuilder.finish_eq_ok_iff.mp hfinish
  cases hf : b.frames with
  | nil => exact Or.inl (by simp)
  | cons frame frames =>
    cases hg : frame.formula with
    | none => exact Or.inl (by simp [hg])
    | some f => exact Or.inr (by simpa [hg] using hb frame (by simp [hf]) f hg)

end Formula

end Verdict
