import Verdict.Engine
import Verdict.Json.Reader

namespace Verdict

/-- Why a check has no result. -/
inductive CheckError where
  | rule (e : RuleError)
  | badJson
  | noInput
  | notAnObject
  /-- A variable would hold a value of JSON that no rule knows. -/
  | unsupported (kind : String)
  deriving DecidableEq

def CheckError.message : CheckError → String
  | rule e => "Rule error: " ++ e.message
  | badJson => "Invalid JSON"
  | noInput => "No variables provided. Use --vars or pipe a JSON object to stdin."
  | notAnObject => "Variables must be a JSON object"
  | unsupported kind => "Variables cannot hold a JSON " ++ kind

namespace Value

mutual

/-- The value of a rule that a value of JSON is. Objects have none. -/
def ofJson : Json → Except CheckError Value
  | .null => .ok null
  | .boolean b => .ok (boolean b)
  | .integer n => .ok (integer n)
  | .float x => .ok (float x)
  | .string s => .ok (string s)
  | .array items => (ofJsonItems items).map array
  | .object _ => .error (.unsupported "object")

/-- The values of the elements of an array. -/
def ofJsonItems : List Json → Except CheckError (List Value)
  | [] => .ok []
  | j :: rest => do
    let v ← ofJson j
    let vs ← ofJsonItems rest
    return v :: vs

end

end Value

/-- Variables from the members of an object, in order. -/
def Bindings.ofMembers (members : List (String × Json)) : Except CheckError Bindings :=
  members.foldlM (fun b (name, j) => (Value.ofJson j).map (b.insert name)) .empty

/-- Variables from the text of a JSON object. -/
def Bindings.ofJson (text : String) : Except CheckError Bindings :=
  match Json.read? text with
  | some (.object members) => Bindings.ofMembers members
  | some _ => .error .notAnObject
  | none => .error .badJson

structure Check where
  text : String
  vars : Option String
  /-- Only the order of the tokens is checked; variables need not be given. -/
  syntaxOnly : Bool
  /-- The algebra of the rule is asked for. -/
  explain : Bool
  limits : Limits

inductive CheckResult where
  | syntaxValid
  | verdict (holds : Bool)
  | explained (algebra : String) (holds : Bool)
  deriving DecidableEq, Repr

namespace Check

/-- Binds the variables of some tokens that are not bound yet. -/
def bindMissing (b : Bindings) (tokens : List Token) : Bindings :=
  tokens.foldl (fun b t =>
    if t.kind = .identifier && !b.contains t.raw then b.insert t.raw .undefined else b) b

def bindings (check : Check) : Except CheckError Bindings :=
  match check.vars with
  | some text => Bindings.ofJson text
  | none => .ok .empty

/-- The formula of a rule, as a part of a check. -/
def formula (engine : Engine) (text : String) (b : Bindings) : Except CheckError Formula :=
  (engine.formula text b).mapError .rule

def run (check : Check) : Except CheckError CheckResult := do
  let engine := Engine.standard check.limits
  let b ← check.bindings
  if check.syntaxOnly then
    let _ ← formula engine check.text (bindMissing b (engine.tokens check.text))
    return .syntaxValid
  else if check.vars.isNone then throw .noInput
  else
    let f ← formula engine check.text b
    return if check.explain then .explained f.text f.verdict else .verdict f.verdict

end Check

/-- Fills a text with blanks up to a number of characters. -/
def padded (width : Nat) (s : String) : String :=
  s ++ String.ofList (List.replicate (width - s.length) ' ')

/-- A token in one line. -/
def Token.describe (t : Token) : String :=
  padded 20 t.kind.name ++ " " ++ padded 24 (quoted t.raw) ++
    " offset " ++ toString t.location.offset ++ " line " ++ toString t.location.line ++
    " position " ++ toString t.location.position

/-- The tokens of a rule, one line each. -/
def listing (limits : Limits) (text : String) : List String :=
  ((Engine.standard limits).tokens text).map Token.describe

end Verdict
