import Verdict.Proofs.Operands.Reading

namespace Verdict

/-- Two scopes say the same about what a token names. -/
structure Scope.AgreesOn (scope scope' : Scope) (t : Token) : Prop where
  maxDepth : scope'.maxDepth = scope.maxDepth
  binding : t.kind = .identifier → scope'.bindings.get? t.raw = scope.bindings.get? t.raw
  function : t.kind = .function →
    scope'.registry.function? t.callee = scope.registry.function? t.callee
  method : t.kind = .method → scope'.registry.method? t.callee = scope.registry.method? t.callee

namespace OperandReader

variable {scope scope' : Scope} {t : Token}

theorem openList_congr (h : scope.AgreesOn scope' t) (r : OperandReader) (opening : Opening) :
    openList scope' r opening t = openList scope r opening t := by
  unfold openList
  rw [h.maxDepth]

theorem startValue_congr (h : scope.AgreesOn scope' t) (r : OperandReader) :
    startValue scope' r t = startValue scope r t := by
  unfold startValue
  split
  next => exact openList_congr h r _
  next hk =>
    rw [h.function hk]
    split
    next => exact openList_congr h r _
    next => rfl
  next hk _ => rw [h.binding hk]
  next => rfl
  next => rfl

theorem startCall_congr (h : scope.AgreesOn scope' t) (hk : t.kind = .method) (r : OperandReader)
    (operand : Operand) : startCall scope' r operand t = startCall scope r operand t := by
  unfold startCall
  rw [h.method hk]
  split
  next => rfl
  next =>
    split
    next => exact openList_congr h r _
    next => rfl

theorem readToken_congr (h : scope.AgreesOn scope' t) (r : OperandReader) :
    readToken scope' r t = readToken scope r t := by
  unfold readToken readInList
  rw [startValue_congr h]

theorem step_congr (h : scope.AgreesOn scope' t) (r : OperandReader) :
    step scope' r t = step scope r t := by
  unfold step
  rw [readToken_congr h]
  split
  next => rfl
  next =>
    split
    next => rfl
    next =>
      split
      next operand hk _ => exact startCall_congr h hk r operand
      next => rfl

theorem run_congr {ts : List Token} (h : ∀ t ∈ ts, scope.AgreesOn scope' t) (r : OperandReader) :
    run scope' r ts = run scope r ts := by
  induction ts generalizing r with
  | nil => rfl
  | cons t ts ih =>
    rw [run_cons, run_cons, step_congr (h t (by simp))]
    exact ih (fun u hu => h u (List.mem_cons_of_mem t hu)) _

end OperandReader

theorem Operands.ofTokens_congr {scope scope' : Scope} {tokens : List Token}
    (h : ∀ t ∈ tokens, scope.AgreesOn scope' t) : ofTokens scope' tokens = ofTokens scope tokens := by
  have hrun := OperandReader.run_congr h .start
  unfold OperandReader.run at hrun
  rw [ofTokens, ofTokens, hrun]

end Verdict
