import Verdict.Proofs.Formula.Acceptance
import Verdict.Proofs.Operands.Reading

namespace Verdict

theorem significant_cons_congr {ts us : List Token} (h : significant us = significant ts)
    (t : Token) : significant (t :: us) = significant (t :: ts) := by
  change significant ([t] ++ us) = significant ([t] ++ ts)
  rw [significant_append, significant_append, h]

namespace OperandReader

variable {scope : Scope} {r s : OperandReader} {t : Token}

/-- Two readers differ at most in the separating tokens that they passed on or keep aside. -/
structure Agrees (r s : OperandReader) : Prop where
  lists : s.lists = r.lists
  operand : s.operand = r.operand
  fault : s.fault = r.fault
  output : significant s.output = significant r.output
  left : Gap r.trivia
  right : Gap s.trivia

theorem agrees_start : Agrees start start :=
  ⟨rfl, rfl, rfl, rfl, .nil, .nil⟩

namespace Agrees

theorem fail (h : Agrees r s) (e : RuleError) : Agrees (r.fail e) (s.fail e) :=
  ⟨h.lists, h.operand, rfl, h.output, h.left, h.right⟩

theorem hold (h : Agrees r s) (token : Token) (bound : Bool) :
    Agrees (r.hold token bound) (s.hold token bound) :=
  ⟨h.lists, rfl, h.fault, h.output, h.left, h.right⟩

theorem emit (h : Agrees r s) (t : Token) : Agrees (r.emit t) (s.emit t) :=
  ⟨h.lists, h.operand, h.fault, significant_cons_congr h.output t, h.left, h.right⟩

theorem withLists (h : Agrees r s) (lists : List OpenList) :
    Agrees { r with lists } { s with lists } :=
  ⟨rfl, h.operand, h.fault, h.output, h.left, h.right⟩

theorem settle (h : Agrees r s) : Agrees r.settle s.settle := by
  unfold OperandReader.settle
  rw [h.lists, h.operand]
  split
  next => exact h
  next operand _ _ =>
    refine ⟨rfl, rfl, h.fault, ?_, .nil, .nil⟩
    have hout := significant_cons_congr h.output operand.token
    rw [significant_append, significant_append, significant_gap h.left, significant_gap h.right]
    exact hout
  next => exact ⟨rfl, rfl, h.fault, h.output, .nil, .nil⟩

theorem openList (h : Agrees r s) (opening : Opening) (t : Token) :
    Agrees (openList scope r opening t) (openList scope s opening t) := by
  unfold OperandReader.openList
  rw [h.lists]
  split
  next => exact h.fail _
  next => exact ⟨rfl, rfl, h.fault, h.output, .nil, .nil⟩

theorem closeList (h : Agrees r s) (list : OpenList) (t : Token) :
    Agrees (closeList r list t) (closeList s list t) := by
  unfold OperandReader.closeList
  split
  next => exact h.fail _
  next =>
    split
    next token _ =>
      rw [h.lists]
      exact (h.withLists r.lists.tail).hold token true
    next e _ => exact h.fail e

theorem startValue (h : Agrees r s) (t : Token) :
    Agrees (startValue scope r t) (startValue scope s t) := by
  unfold OperandReader.startValue
  split
  next => exact h.openList _ t
  next =>
    split
    next => exact h.openList _ t
    next => exact h.fail _
  next =>
    split
    next => exact h.hold _ true
    next =>
      rw [h.lists]
      split
      next => exact h.hold t false
      next => exact h.fail _
  next => exact h.hold t true
  next => exact h.hold _ true

theorem startCall (h : Agrees r s) (operand : Operand) (t : Token) :
    Agrees (startCall scope r operand t) (startCall scope s operand t) := by
  unfold OperandReader.startCall
  split
  next => exact h.fail _
  next =>
    split
    next => exact h.openList _ t
    next => exact h.fail _

theorem readToken (h : Agrees r s) (t : Token) :
    Agrees (readToken scope r t) (readToken scope s t) := by
  unfold OperandReader.readToken readInList
  rw [h.lists]
  split
  next list lists _ =>
    split
    next => exact h.closeList list t
    next =>
      split
      next =>
        split
        next => exact h.fail _
        next => exact h.startValue t
      next =>
        split
        next => exact h.withLists _
        next => exact h.fail _
  next =>
    split
    next => exact h.startValue t
    next => exact h.emit t

/-- Both readers read the same token, which separates nothing. -/
theorem step (h : Agrees r s) (ht : t.isTrivia = false) :
    Agrees (step scope r t) (step scope s t) := by
  unfold OperandReader.step
  rw [h.fault, h.operand, ht]
  split
  next => exact h
  next =>
    simp only [Bool.false_eq_true, if_false]
    split
    next operand _ _ => exact h.startCall operand t
    next => exact h.settle.readToken t

/-- One of the readers reads a token that the other does not see. -/
theorem skip (h : Agrees r s) (ht : t.isTrivia = true) :
    Agrees (OperandReader.step scope r t) s := by
  unfold OperandReader.step
  split
  next => exact h
  next =>
    unfold readTrivia
    split
    next =>
      have hout := significant_cons_of_isTrivia ht r.output
      exact ⟨h.lists, h.operand, h.fault, h.output.trans hout.symm, h.left, h.right⟩
    next =>
      exact ⟨h.lists, h.operand, h.fault, h.output, h.left.cons ht, h.right⟩
    next => exact h

theorem run (scope : Scope) (h : Agrees r s) (ts : List Token) :
    Agrees (run scope r ts) (run scope s (significant ts)) := by
  induction ts generalizing r s with
  | nil => exact h
  | cons t ts ih =>
    cases ht : t.isTrivia with
    | true =>
      -- Only the first reader takes a step, and stays in agreement with the one that waits.
      rw [significant_cons_of_isTrivia ht]
      exact ih (h.skip ht)
    | false =>
      rw [significant_cons ht]
      exact ih (h.step ht)

theorem finish (h : Agrees r s) : Agrees r.finish s.finish := by
  unfold OperandReader.finish
  rw [h.fault, h.lists]
  split
  next => exact h
  next =>
    split
    next => exact h.settle
    next => exact h.fail _

end Agrees

end OperandReader

/-- Without the separating tokens, the same operands are worked out and the same error is found. -/
theorem Operands.ofTokens_significant (scope : Scope) (tokens : List Token) :
    significant (ofTokens scope (significant tokens)).tokens =
        significant (ofTokens scope tokens).tokens ∧
      (ofTokens scope (significant tokens)).fault = (ofTokens scope tokens).fault := by
  have h := (OperandReader.agrees_start.run scope tokens).finish
  refine ⟨?_, h.fault⟩
  have hout := congrArg List.reverse h.output
  rwa [← significant_reverse, ← significant_reverse] at hout

/-- A formula hangs on nothing but the tokens that do not only separate others, and on the error. -/
theorem Formula.ofOperands_congr {maxDepth : Nat} {a b : Operands}
    (htokens : significant a.tokens = significant b.tokens) (hfault : a.fault = b.fault) :
    ofOperands maxDepth a = ofOperands maxDepth b := by
  unfold ofOperands
  rw [FormulaBuilder.run_significant, FormulaBuilder.run_significant _ b.tokens, hfault]
  change List.filter _ a.tokens = List.filter _ b.tokens at htokens
  rw [htokens]

/-- A rule without its blanks, newlines and comments has the same formula, or the same error at the
same place. -/
theorem ofOperands_ofTokens_significant (scope : Scope) (maxDepth : Nat) (tokens : List Token) :
    Formula.ofOperands maxDepth (Operands.ofTokens scope tokens) =
      Formula.ofOperands maxDepth (Operands.ofTokens scope (significant tokens)) := by
  obtain ⟨htokens, hfault⟩ := Operands.ofTokens_significant scope tokens
  exact Formula.ofOperands_congr htokens.symm hfault.symm

end Verdict
