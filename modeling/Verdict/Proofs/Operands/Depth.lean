import Verdict.Proofs.Operands.Reading

namespace Verdict

namespace OperandReader

variable {scope : Scope} {depth : Nat} {r s : OperandReader} {t : Token}

theorem length_lists_openList (h : r.lists.length ≤ scope.maxDepth) (opening : Opening) :
    (openList scope r opening t).lists.length ≤ scope.maxDepth := by
  unfold openList
  split
  next => exact h
  next hd =>
    simp only [List.length_cons]
    omega

theorem length_lists_closeList (list : OpenList) :
    (closeList r list t).lists.length ≤ r.lists.length := by
  unfold closeList
  split
  next => exact Nat.le_refl _
  next =>
    split
    next =>
      have htail : r.lists.tail.length = r.lists.length - 1 := List.length_tail
      change r.lists.tail.length ≤ r.lists.length
      omega
    next => exact Nat.le_refl _

theorem length_lists_startValue (h : r.lists.length ≤ scope.maxDepth) :
    (startValue scope r t).lists.length ≤ scope.maxDepth := by
  unfold startValue
  split
  next => exact length_lists_openList h _
  next =>
    split
    next => exact length_lists_openList h _
    next => exact h
  next =>
    split
    next => exact h
    next => split <;> exact h
  next => exact h
  next => exact h

theorem length_lists_startCall (h : r.lists.length ≤ scope.maxDepth) (operand : Operand) :
    (startCall scope r operand t).lists.length ≤ scope.maxDepth := by
  unfold startCall
  split
  next => exact h
  next =>
    split
    next => exact length_lists_openList h _
    next => exact h

theorem length_lists_readToken (h : r.lists.length ≤ scope.maxDepth) :
    (readToken scope r t).lists.length ≤ scope.maxDepth := by
  unfold readToken
  split
  next list lists hl =>
    unfold readInList
    split
    next => exact Nat.le_trans (length_lists_closeList list) h
    next =>
      split
      next =>
        split
        next => exact h
        next => exact length_lists_startValue h
      next =>
        split
        next => rwa [hl] at h
        next => exact h
  next =>
    split
    next => exact length_lists_startValue h
    next => exact h

theorem length_lists_step (h : r.lists.length ≤ scope.maxDepth) :
    (step scope r t).lists.length ≤ scope.maxDepth := by
  unfold step
  split
  next => exact h
  next =>
    split
    next =>
      unfold readTrivia
      split <;> exact h
    next =>
      split
      next operand _ _ => exact length_lists_startCall h operand
      next => exact length_lists_readToken (length_lists_settle.symm ▸ h)

theorem length_lists_run {ts : List Token} (h : r.lists.length ≤ scope.maxDepth) :
    (run scope r ts).lists.length ≤ scope.maxDepth := by
  induction ts generalizing r with
  | nil => exact h
  | cons t ts ih => exact ih (length_lists_step h)

/-- The second reader is the same, or it went on where the first one stopped: at a list that nests too
deeply. -/
def Within (limit : Nat) (r s : OperandReader) : Prop :=
  r = s ∨
    (∃ location, r.fault = some (.malformed (.tooDeep limit) location)) ∧ r.output <:+ s.output

theorem within_openList (h : scope.maxDepth ≤ depth) (r : OperandReader) (opening : Opening)
    (t : Token) :
    Within scope.maxDepth (openList scope r opening t)
      (openList { scope with maxDepth := depth } r opening t) := by
  by_cases hd : scope.maxDepth ≤ r.lists.length
  · refine .inr ⟨⟨some t.location, ?_⟩, ?_⟩
    · rw [openList, if_pos hd]
      rfl
    · simp only [output_openList, List.suffix_rfl]
  · refine .inl ?_
    have hd' : ¬ depth ≤ r.lists.length := by omega
    rw [openList, openList, if_neg hd, if_neg hd']

theorem within_startValue (h : scope.maxDepth ≤ depth) (r : OperandReader) (t : Token) :
    Within scope.maxDepth (startValue scope r t)
      (startValue { scope with maxDepth := depth } r t) := by
  unfold startValue
  split
  next => exact within_openList h r _ t
  next =>
    dsimp only
    split
    next => exact within_openList h r _ t
    next => exact .inl rfl
  next => exact .inl rfl
  next => exact .inl rfl
  next => exact .inl rfl

theorem within_startCall (h : scope.maxDepth ≤ depth) (r : OperandReader) (operand : Operand)
    (t : Token) :
    Within scope.maxDepth (startCall scope r operand t)
      (startCall { scope with maxDepth := depth } r operand t) := by
  unfold startCall
  split
  next => exact .inl rfl
  next =>
    dsimp only
    split
    next => exact within_openList h r _ t
    next => exact .inl rfl

theorem within_readToken (h : scope.maxDepth ≤ depth) (r : OperandReader) (t : Token) :
    Within scope.maxDepth (readToken scope r t) (readToken { scope with maxDepth := depth } r t) := by
  unfold readToken readInList
  split
  next =>
    split
    next => exact .inl rfl
    next =>
      split
      next =>
        split
        next => exact .inl rfl
        next => exact within_startValue h r t
      next => exact .inl rfl
  next =>
    split
    next => exact within_startValue h r t
    next => exact .inl rfl

theorem within_step (h : scope.maxDepth ≤ depth) (r : OperandReader) (t : Token) :
    Within scope.maxDepth (step scope r t) (step { scope with maxDepth := depth } r t) := by
  unfold step
  split
  next => exact .inl rfl
  next =>
    split
    next => exact .inl rfl
    next =>
      split
      next operand _ _ => exact within_startCall h r operand t
      next => exact within_readToken h r.settle t

theorem Within.run (hd : scope.maxDepth ≤ depth) (h : Within scope.maxDepth r s) (ts : List Token) :
    Within scope.maxDepth (run scope r ts) (run { scope with maxDepth := depth } s ts) := by
  induction ts generalizing r s with
  | nil => exact h
  | cons t ts ih =>
    refine ih ?_
    rcases h with rfl | ⟨⟨location, hf⟩, hout⟩
    · exact within_step hd r t
    · -- The first reader has stopped, and all that the other still does comes after its output.
      rw [step_of_fault (r := r) (by simp [hf])]
      exact .inr ⟨⟨location, hf⟩, hout.trans output_suffix_step⟩

theorem Within.finish {limit : Nat} (h : Within limit r s) : Within limit r.finish s.finish := by
  rcases h with rfl | ⟨⟨location, hf⟩, hout⟩
  · exact .inl rfl
  · rw [finish_of_fault (r := r) (by simp [hf])]
    exact .inr ⟨⟨location, hf⟩, hout.trans output_suffix_finish⟩

end OperandReader

/-- Where lists may nest more deeply, the same operands are worked out, or more of them than up to a
list that nests too deeply. -/
theorem Operands.ofTokens_within (scope : Scope) {depth : Nat} (h : scope.maxDepth ≤ depth)
    (tokens : List Token) :
    ofTokens scope tokens = ofTokens { scope with maxDepth := depth } tokens ∨
      (∃ location, (ofTokens scope tokens).fault =
        some (.malformed (.tooDeep scope.maxDepth) location)) ∧
      (ofTokens scope tokens).tokens <+:
        (ofTokens { scope with maxDepth := depth } tokens).tokens := by
  have hwithin : OperandReader.Within scope.maxDepth
      (OperandReader.run scope .start tokens).finish
      (OperandReader.run { scope with maxDepth := depth } .start tokens).finish :=
    (OperandReader.Within.run h (.inl rfl) tokens).finish
  rcases hwithin with heq | ⟨hf, hout⟩
  · refine .inl ?_
    unfold OperandReader.run at heq
    rw [ofTokens, ofTokens, heq]
  · exact .inr ⟨hf, List.reverse_prefix.mpr hout⟩

end Verdict
