import Verdict.Proofs.Formula.Building

namespace Verdict

namespace Formula

/-- The largest number of groups that lie within each other. -/
def nesting : Formula → Nat
  | empty | leaf _ => 0
  | group f => f.nesting + 1
  | binary _ left right => max left.nesting right.nesting

end Formula

theorem Frame.nesting_push {frame : Frame} {operand f : Formula} {n : Nat}
    (hf : ∀ g, frame.formula = some g → g.nesting ≤ n) (ho : operand.nesting ≤ n)
    (h : (frame.push operand).formula = some f) : f.nesting ≤ n := by
  unfold push at h
  split at h
  next left op hl _ =>
    cases Option.some.inj h
    exact Nat.max_le.mpr ⟨hf left hl, ho⟩
  next =>
    cases Option.some.inj h
    exact ho

namespace FormulaBuilder

variable {b after : FormulaBuilder} {t : Token}

/-- The formula of each frame nests only as deeply as the frames below it leave room for. -/
def FramesWithin (maxDepth : Nat) : List Frame → Prop
  | [] => True
  | frame :: frames => frames.length ≤ maxDepth ∧
      (∀ f, frame.formula = some f → f.nesting ≤ maxDepth - frames.length) ∧
      FramesWithin maxDepth frames

theorem framesWithin_pushOperand {operand : Formula} (h : FramesWithin b.maxDepth b.frames)
    (ho : operand.nesting + b.frames.length ≤ b.maxDepth + 1) :
    FramesWithin b.maxDepth (b.pushOperand operand).frames := by
  unfold pushOperand
  cases hf : b.frames with
  | nil => simp [hf, FramesWithin]
  | cons frame frames =>
    rw [hf] at h
    obtain ⟨hlength, hframe, hrest⟩ := h
    have hroom : operand.nesting ≤ b.maxDepth - frames.length := by
      simp only [hf, List.length_cons] at ho
      omega
    exact ⟨hlength, fun f => Frame.nesting_push hframe hroom, hrest⟩

theorem maxDepth_pushOperand (operand : Formula) :
    (b.pushOperand operand).maxDepth = b.maxDepth := by
  rw [pushOperand_eq]

theorem Move.maxDepth (h : Move b t after) : after.maxDepth = b.maxDepth := by
  cases h with
  | comparison => exact maxDepth_pushOperand _
  | closing => exact maxDepth_pushOperand _
  | _ => rfl

theorem framesWithin_move (hm : Move b t after) (h : FramesWithin b.maxDepth b.frames) :
    FramesWithin after.maxDepth after.frames := by
  rw [hm.maxDepth]
  cases hm with
  | trivia => exact h
  | value => exact h
  | @comparison left right op holds =>
    refine framesWithin_pushOperand (b := { b with
      values := [], operator := none, operatorRequired := true, conditionIncomplete := false }) h ?_
    change 0 + b.frames.length ≤ b.maxDepth + 1
    cases hf : b.frames with
    | nil => exact Nat.zero_le _
    | cons frame frames =>
      rw [hf] at h
      have hlength := h.1
      simp only [List.length_cons]
      omega
  | operator => exact h
  | connective =>
    unfold joined
    cases hf : b.frames with
    | nil => exact trivial
    | cons frame frames =>
      rw [hf] at h
      exact h
  | opening _ _ _ hd => exact ⟨hd, nofun, h⟩
  | @closing inner pending frames _ _ _ _ _ hf =>
    rw [hf] at h
    obtain ⟨hlength, hinner, hrest⟩ := h
    have hnesting := hinner inner rfl
    refine framesWithin_pushOperand (b := { b with closed := b.closed + 1, frames }) hrest ?_
    change inner.nesting + 1 + frames.length ≤ b.maxDepth + 1
    omega

/-- The error of a group that nests too deeply. -/
def TooDeep (limit : Nat) (e : RuleError) : Prop :=
  ∃ location, e = .malformed (.tooDeep limit) location

/-- The same builder with another limit. -/
def limited (b : FormulaBuilder) (depth : Nat) : FormulaBuilder :=
  { b with maxDepth := depth }

variable {depth : Nat}

theorem pushValue_limited (b : FormulaBuilder) (depth : Nat) (t : Token) :
    (b.limited depth).pushValue t = (b.pushValue t).map (·.limited depth) := by
  unfold pushValue limited
  split
  next => rfl
  next => cases valueOf t <;> rfl

theorem reduce_limited (b : FormulaBuilder) (depth : Nat) :
    (b.limited depth).reduce = b.reduce.map (·.limited depth) := by
  unfold reduce limited
  dsimp only
  split
  next =>
    split
    next => simp [Except.map, pushOperand_eq]
    next => rfl
  next => rfl

theorem step_value_limited (hg : t.kind.group = .value) (b : FormulaBuilder) (depth : Nat) :
    (b.limited depth).step t = (b.step t).map (·.limited depth) := by
  rw [step_value hg, step_value hg, pushValue_limited]
  cases b.pushValue t with
  | error e => rfl
  | ok next => exact reduce_limited next depth

theorem pushOperator_limited (b : FormulaBuilder) (depth : Nat) (op : Comparison) (t : Token) :
    (b.limited depth).pushOperator op t = (b.pushOperator op t).map (·.limited depth) := by
  unfold pushOperator limited
  split
  next => rfl
  next => split <;> rfl

theorem pushConnective_limited (b : FormulaBuilder) (depth : Nat) (op : Connective) (t : Token) :
    (b.limited depth).pushConnective op t = (b.pushConnective op t).map (·.limited depth) := by
  unfold pushConnective limited
  split <;> rfl

theorem closeGroup_limited (b : FormulaBuilder) (depth : Nat) (t : Token) :
    (b.limited depth).closeGroup t = (b.closeGroup t).map (·.limited depth) := by
  unfold closeGroup limited
  dsimp only
  split
  next => rfl
  next =>
    split
    next => rfl
    next =>
      split
      next => rfl
      next =>
        split
        next => simp [Except.map, pushOperand_eq]
        next => rfl

theorem openGroup_limited (h : b.maxDepth ≤ depth) (t : Token) :
    (∃ e, b.openGroup t = .error e ∧ TooDeep b.maxDepth e) ∨
      (b.limited depth).openGroup t = (b.openGroup t).map (·.limited depth) := by
  unfold openGroup limited
  dsimp only
  split
  next => exact .inr rfl
  next =>
    split
    next => exact .inl ⟨_, rfl, _, rfl⟩
    next hd =>
      have hd' : ¬ depth < b.frames.length := by omega
      rw [if_neg hd']
      exact .inr rfl

/-- A larger limit makes no difference to what a token does, unless it opens a group that nests too
deeply. -/
theorem step_limited (h : b.maxDepth ≤ depth) (t : Token) :
    (∃ e, b.step t = .error e ∧ TooDeep b.maxDepth e) ∨
      (b.limited depth).step t = (b.step t).map (·.limited depth) := by
  by_cases hg : t.kind.group = .value
  · exact .inr (step_value_limited hg b depth)
  · unfold step
    split
    next op _ => exact .inr (pushOperator_limited b depth op t)
    next op _ => exact .inr (pushConnective_limited b depth op t)
    next => exact openGroup_limited h t
    next => exact .inr (closeGroup_limited b depth t)
    iterate 9 next hk => exact absurd (by rw [hk]; rfl) hg
    all_goals exact .inr rfl

theorem run_limited (h : b.maxDepth ≤ depth) (ts : List Token) :
    (∃ e, ts.foldlM step b = .error e ∧ TooDeep b.maxDepth e) ∨
      ts.foldlM step (b.limited depth) = (ts.foldlM step b).map (·.limited depth) := by
  induction ts generalizing b with
  | nil => exact .inr rfl
  | cons t ts ih =>
    rw [List.foldlM_cons, List.foldlM_cons]
    rcases step_limited h t with ⟨e, hs, he⟩ | hs
    · rw [hs]
      exact .inl ⟨e, rfl, he⟩
    · rw [hs]
      cases hb : b.step t with
      | error e => exact .inr rfl
      | ok next =>
        have hdepth : next.maxDepth = b.maxDepth := (move_of_step hb).maxDepth
        rw [← hdepth] at h ⊢
        exact ih h

end FormulaBuilder

namespace Formula

open FormulaBuilder

/-- A formula has no more groups within each other than are allowed. -/
theorem nesting_le_of_ofOperands {maxDepth : Nat} {operands : Operands} {f : Formula}
    (h : ofOperands maxDepth operands = .ok f) : f.nesting ≤ maxDepth := by
  obtain ⟨_, b, hrun, hfinish⟩ := ofOperands_eq_ok_iff.mp h
  have hstart : FramesWithin maxDepth (start maxDepth).frames := ⟨Nat.zero_le _, nofun, trivial⟩
  have hb : b.maxDepth = maxDepth ∧ FramesWithin maxDepth b.frames := by
    refine foldlM_keeps
      (P := fun b => b.maxDepth = maxDepth ∧ FramesWithin maxDepth b.frames) ?_ ⟨rfl, hstart⟩ hrun
    rintro b t after ⟨rfl, hb⟩ hs
    have hm := move_of_step hs
    have hafter := framesWithin_move hm hb
    rw [hm.maxDepth] at hafter
    exact ⟨hm.maxDepth, hafter⟩
  obtain ⟨_, _, _, _, rfl⟩ := finish_eq_ok_iff.mp hfinish
  cases hf : b.frames with
  | nil => exact Nat.zero_le _
  | cons frame frames =>
    rw [hf] at hb
    obtain ⟨_, _, hframe, _⟩ := hb
    cases hformula : frame.formula with
    | none => simp [hformula, nesting]
    | some f =>
      have hnesting := hframe f hformula
      simp only [List.head?_cons, Option.bind_some, hformula, Option.getD_some]
      omega

/-- Where groups may nest more deeply, a rule has the same formula or the same error, unless a group
nests too deeply. -/
theorem ofOperands_limited {maxDepth depth : Nat} (h : maxDepth ≤ depth) (operands : Operands) :
    (∃ e, ofOperands maxDepth operands = .error e ∧ TooDeep maxDepth e) ∨
      ofOperands maxDepth operands = ofOperands depth operands := by
  have hstart : start depth = (start maxDepth).limited depth := rfl
  unfold ofOperands
  rw [hstart]
  rcases run_limited (b := start maxDepth) h operands.tokens with ⟨e, hrun, he⟩ | hrun
  · rw [hrun]
    exact .inl ⟨e, rfl, he⟩
  · rw [hrun]
    refine .inr ?_
    cases operands.tokens.foldlM step (start maxDepth) with
    | error e => rfl
    | ok b => rfl

/-- The same of operands that are worked out no further than up to an error. -/
theorem ofOperands_prefix (maxDepth : Nat) (e : RuleError) {tokens : List Token}
    {operands : Operands} (h : tokens <+: operands.tokens) :
    ofOperands maxDepth ⟨tokens, some e⟩ = .error e ∨
      ofOperands maxDepth ⟨tokens, some e⟩ = ofOperands maxDepth operands := by
  obtain ⟨rest, hrest⟩ := h
  unfold ofOperands
  rw [← hrest, List.foldlM_append]
  cases tokens.foldlM step (start maxDepth) with
  | error e => exact .inr rfl
  | ok b => exact .inl rfl

end Formula

end Verdict
