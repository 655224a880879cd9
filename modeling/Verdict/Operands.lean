import Verdict.Bindings
import Verdict.Call.Registry
import Verdict.Token.Basic

namespace Verdict

/-- What names stand for, and how deeply arrays and argument lists may nest. -/
structure Scope where
  bindings : Bindings
  registry : Registry
  maxDepth : Nat

/-- What opened a list, and what its elements are for. -/
inductive Opening where
  | array (opener : Token)
  | function (f : Callable) (opener : Token)
  | method (f : Callable) (opener : Token) (receiver : Token)

namespace Opening

/-- The kind of token that ends the list. -/
def closer : Opening → TokenKind
  | array _ => .closeBracket
  | function _ _ | method _ _ _ => .closeParen

def closerText : Opening → String
  | array _ => "]"
  | function _ _ | method _ _ _ => ")"

/-- A failed call, at the token that made it. -/
def failure (opener : Token) (e : CallError) : RuleError :=
  .badType (.call e) (some opener.location)

/-- The token that a complete list makes: an array, or the result of the call, in the place of the
receiver if there is one. -/
def complete (opening : Opening) (items : List Value) : Except RuleError Token :=
  match opening with
  | array opener => .ok (.resolved (.array items) opener.raw opener.location)
  | function f opener =>
    match f none items with
    | .ok v => .ok (.resolved v opener.raw opener.location)
    | .error e => .error (failure opener e)
  | method f opener receiver =>
    match f (some (receiver.value.getD .undefined)) items with
    | .ok v => .ok (.resolved v receiver.raw receiver.location)
    | .error e => .error (failure opener e)

end Opening

/-- A list that is open: its elements, the last one first, and whether a comma has to come next. -/
structure OpenList where
  opening : Opening
  items : List Value
  commaExpected : Bool

/-- A value that a method call may follow: a literal, a variable, an array or the result of a call.
A variable outside all lists may be unbound: whether that is an error at this place depends on what
follows. -/
structure Operand where
  token : Token
  bound : Bool

/-- The progress of the reading: the open lists, the innermost one first; the operand just read and
the separating tokens after it; the tokens worked out, the last one first; and the error that ends
the reading. -/
structure OperandReader where
  lists : List OpenList
  operand : Option Operand
  trivia : List Token
  output : List Token
  fault : Option RuleError

namespace OperandReader

def start : OperandReader := ⟨[], none, [], [], none⟩

/-- Ends the reading with an error. -/
def fail (r : OperandReader) (e : RuleError) : OperandReader :=
  { r with fault := some e }

/-- Ends the reading with an error in the order of the tokens. -/
def malformed (r : OperandReader) (fault : SyntaxFault) (t : Token) : OperandReader :=
  r.fail (.malformed fault (some t.location))

/-- Passes a token on as it is. -/
def emit (r : OperandReader) (t : Token) : OperandReader :=
  { r with output := t :: r.output }

/-- Keeps an operand until it is known whether a method call follows. -/
def hold (r : OperandReader) (token : Token) (bound : Bool) : OperandReader :=
  { r with operand := some ⟨token, bound⟩ }

/-- Ends the operand that was kept: it becomes an element of the innermost list, or a token, with
the separating tokens after it. -/
def settle (r : OperandReader) : OperandReader :=
  match r.operand, r.lists with
  | none, _ => r
  | some operand, [] =>
    { r with operand := none, trivia := [], output := r.trivia ++ operand.token :: r.output }
  | some operand, list :: lists =>
    let v := operand.token.value.getD .undefined
    let list := { list with items := v :: list.items, commaExpected := true }
    { r with operand := none, trivia := [], lists := list :: lists }

/-- Opens a list at a token. -/
def openList (scope : Scope) (r : OperandReader) (opening : Opening) (t : Token) :
    OperandReader :=
  if scope.maxDepth ≤ r.lists.length then r.malformed (.tooDeep scope.maxDepth) t
  else
    { r with lists := ⟨opening, [], false⟩ :: r.lists, operand := none, trivia := [] }

/-- Ends the innermost list at a token. A comma must not stand before it. -/
def closeList (r : OperandReader) (list : OpenList) (t : Token) : OperandReader :=
  if !list.commaExpected && !list.items.isEmpty then r.malformed (.unexpectedToken ",") t
  else match list.opening.complete list.items.reverse with
    | .ok token => { r with lists := r.lists.tail }.hold token true
    | .error e => r.fail e

/-- The error of a variable that is not bound. -/
def unbound (t : Token) : RuleError :=
  .undefinedVariable (upperText t.raw) t.location

/-- Reads a token that starts a value. -/
def startValue (scope : Scope) (r : OperandReader) (t : Token) : OperandReader :=
  match t.kind, t.value with
  | .openBracket, _ => openList scope r (.array t) t
  | .function, _ =>
    match scope.registry.function? t.callee with
    | some f => openList scope r (.function f t) t
    | none => r.fail (.undefinedFunction t.callee t.location)
  | .identifier, none =>
    match scope.bindings.get? t.raw with
    | some v => r.hold (.resolved v t.raw t.location) true
    | none => if r.lists.isEmpty then r.hold t false else r.fail (unbound t)
  | _, some _ => r.hold t true
  | _, none => r.hold (.resolved (.string t.raw) t.raw t.location) true

/-- Reads the head of a method call on an operand. -/
def startCall (scope : Scope) (r : OperandReader) (operand : Operand) (t : Token) :
    OperandReader :=
  if !operand.bound then r.fail (unbound operand.token)
  else match scope.registry.method? t.callee with
    | some f => openList scope r (.method f t operand.token) t
    | none => r.fail (.undefinedMethod t.callee t.location)

/-- Reads a token inside a list. -/
def readInList (scope : Scope) (r : OperandReader) (list : OpenList) (lists : List OpenList)
    (t : Token) : OperandReader :=
  if t.kind = list.opening.closer then r.closeList list t
  else if t.kind.startsValue then
    if list.commaExpected then r.malformed .unexpectedValue t else startValue scope r t
  else if t.kind = .comma ∧ list.commaExpected then
    { r with lists := { list with commaExpected := false } :: lists }
  else r.malformed (.unexpectedToken t.raw) t

/-- Reads a token that neither separates others nor calls a method on the operand. -/
def readToken (scope : Scope) (r : OperandReader) (t : Token) : OperandReader :=
  match r.lists with
  | list :: lists => readInList scope r list lists t
  | [] => if t.kind.startsValue then startValue scope r t else r.emit t

/-- Reads a token that separates others. -/
def readTrivia (r : OperandReader) (t : Token) : OperandReader :=
  match r.lists, r.operand with
  | [], none => r.emit t
  | [], some _ => { r with trivia := t :: r.trivia }
  | _ :: _, _ => r

/-- Reads the next token. -/
def step (scope : Scope) (r : OperandReader) (t : Token) : OperandReader :=
  if r.fault.isSome then r
  else if t.isTrivia then r.readTrivia t
  else match t.kind, r.operand with
    | .method, some operand => startCall scope r operand t
    | _, _ => readToken scope r.settle t

/-- Ends the reading: no list may be open. -/
def finish (r : OperandReader) : OperandReader :=
  if r.fault.isSome then r
  else match r.lists with
    | [] => r.settle
    | list :: _ => r.fail (.malformed (.unexpectedEnd list.opening.closerText) none)

end OperandReader

/-- The tokens of a rule with their operands worked out, as far as there is no error, and the
error. -/
structure Operands where
  tokens : List Token
  fault : Option RuleError

namespace Operands

/-- Works out the operands among some tokens. -/
def ofTokens (scope : Scope) (tokens : List Token) : Operands :=
  let r := (tokens.foldl (OperandReader.step scope) .start).finish
  ⟨r.output.reverse, r.fault⟩

end Operands

end Verdict
