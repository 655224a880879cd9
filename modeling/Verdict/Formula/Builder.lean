import Verdict.Formula.Basic
import Verdict.Operands

namespace Verdict

/-- What has been read between two parentheses: a formula, and the connective after it. -/
structure Frame where
  formula : Option Formula
  pending : Option Connective
  deriving DecidableEq

def Frame.push (frame : Frame) (operand : Formula) : Frame :=
  match frame.formula, frame.pending with
  | some left, some op => ⟨some (left.join op operand), none⟩
  | _, _ => ⟨some operand, none⟩

/-- The progress of the building. `frames` holds the parentheses that are open, the innermost one
first, and the rule itself last. -/
structure FormulaBuilder where
  values : List Value
  operator : Option Comparison
  /-- An operand or a group is complete, so that an operator or a connective has to follow. -/
  operatorRequired : Bool
  /-- A connective has been read and nothing after it. -/
  conditionIncomplete : Bool
  opened : Nat
  closed : Nat
  frames : List Frame
  maxDepth : Nat

namespace FormulaBuilder

def start (maxDepth : Nat) : FormulaBuilder :=
  { values := [], operator := none, operatorRequired := false, conditionIncomplete := false,
    opened := 0, closed := 0, frames := [⟨none, none⟩], maxDepth }

/-- The error of a token that is out of order. -/
def malformed (fault : SyntaxFault) (t : Token) : RuleError :=
  .malformed fault (some t.location)

/-- The value of a token; a variable without one is not bound. -/
def valueOf (t : Token) : Except RuleError Value :=
  match t.value with
  | some v => .ok v
  | none => if t.kind = .identifier then .error (OperandReader.unbound t) else .ok .undefined

def pushValue (b : FormulaBuilder) (t : Token) : Except RuleError FormulaBuilder :=
  if b.operatorRequired then .error (malformed .missingOperator t)
  else do
    let v ← valueOf t
    return { b with
      values := b.values ++ [v], operatorRequired := true, conditionIncomplete := false }

/-- Reads a comparison. -/
def pushOperator (b : FormulaBuilder) (op : Comparison) (t : Token) :
    Except RuleError FormulaBuilder :=
  if b.operator.isSome then .error (malformed (.unexpected t.raw) t)
  else if b.values.isEmpty then .error (malformed (.incompleteBefore t.raw) t)
  else .ok { b with operator := some op, operatorRequired := false }

/-- Adds an operand to the innermost frame. -/
def pushOperand (b : FormulaBuilder) (operand : Formula) : FormulaBuilder :=
  match b.frames with
  | [] => b
  | frame :: frames => { b with frames := frame.push operand :: frames }

/-- Decides the comparison that has been read as soon as it has both its operands; only its verdict
is kept. -/
def reduce (b : FormulaBuilder) : Except RuleError FormulaBuilder :=
  match b.values, b.operator with
  | [left, right], some op =>
    match op.holds? left right with
    | some holds =>
      .ok (pushOperand { b with values := [], operator := none, operatorRequired := true }
        (.leaf holds))
    | none => .error (.badType (.expectedArray right.typeName) none)
  | _, _ => .ok b

/-- Reads a connective, before which a comparison or a group has to be complete. -/
def pushConnective (b : FormulaBuilder) (op : Connective) (t : Token) :
    Except RuleError FormulaBuilder :=
  if !b.operatorRequired || !b.values.isEmpty then .error (malformed (.unexpected t.raw) t)
  else
    let frames := match b.frames with
      | [] => []
      | frame :: frames => { frame with pending := some op } :: frames
    .ok { b with frames, conditionIncomplete := true, operatorRequired := false }

def openGroup (b : FormulaBuilder) (t : Token) : Except RuleError FormulaBuilder :=
  if b.operatorRequired || !b.values.isEmpty then .error (malformed (.unexpectedToken "(") t)
  else if b.maxDepth < b.frames.length then .error (malformed (.tooDeep b.maxDepth) t)
  else .ok { b with opened := b.opened + 1, frames := ⟨none, none⟩ :: b.frames }

def closeGroup (b : FormulaBuilder) (t : Token) : Except RuleError FormulaBuilder :=
  if b.opened ≤ b.closed then .error (malformed .missingOpening t)
  else if b.operator.isSome || !b.values.isEmpty then .error (malformed .incomplete t)
  else if b.conditionIncomplete then .error (malformed .incompleteCondition t)
  else match b.frames with
    | ⟨some inner, _⟩ :: frames =>
      .ok (pushOperand { b with closed := b.closed + 1, frames } (.group inner))
    | _ => .error (malformed (.unexpected t.raw) t)

/-- Reads the next token. -/
def step (b : FormulaBuilder) (t : Token) : Except RuleError FormulaBuilder :=
  match t.kind with
  | .comparison op => b.pushOperator op t
  | .connective op => b.pushConnective op t
  | .openParen => b.openGroup t
  | .closeParen => b.closeGroup t
  | .integer | .float | .string | .boolean | .null | .undefined | .regex | .identifier | .array =>
    do (← b.pushValue t).reduce
  | .space | .newline | .comment => .ok b
  | .openBracket | .closeBracket | .comma | .method | .function | .unknown =>
    .error (malformed (.unknownToken t.raw) t)

/-- Ends the building: nothing may be left incomplete. -/
def finish (b : FormulaBuilder) : Except RuleError Formula :=
  if b.conditionIncomplete then .error (.malformed .incompleteCondition none)
  else if b.closed < b.opened then .error (.malformed .missingClosing none)
  else if b.operator.isSome || !b.values.isEmpty then .error (.malformed .incomplete none)
  else .ok ((b.frames.head?.bind Frame.formula).getD .empty)

end FormulaBuilder

namespace Formula

/-- The formula of a rule, or its first error: that of the tokens that have been worked out comes
before the one that ended the working out. -/
def ofOperands (maxDepth : Nat) (operands : Operands) : Except RuleError Formula := do
  let b ← operands.tokens.foldlM FormulaBuilder.step (.start maxDepth)
  match operands.fault with
  | some e => .error e
  | none => b.finish

/-- The formula of tokens whose operands have all been worked out. -/
def ofTokens (maxDepth : Nat) (tokens : List Token) : Except RuleError Formula :=
  ofOperands maxDepth ⟨tokens, none⟩

end Formula

end Verdict
