import Verdict.Call.Functions
import Verdict.Formula.Builder
import Verdict.Lexicon.Scan
import Verdict.Lexicon.Standard
import Verdict.Limits

namespace Verdict

/-- What it takes to read rules. -/
structure Engine where
  lexicon : Lexicon
  registry : Registry
  limits : Limits

namespace Engine

/-- The engine with the standard lexicon and registry. -/
def standard (limits : Limits) : Engine :=
  ⟨.standard, .standard, limits⟩

def tokens (engine : Engine) (text : String) : List Token :=
  engine.lexicon.scan text

/-- The scope in which operands are worked out. -/
def scope (engine : Engine) (bindings : Bindings) : Scope :=
  ⟨bindings, engine.registry, engine.limits.maxNestingDepth⟩

/-- The tokens of a text with their operands worked out. -/
def operands (engine : Engine) (text : String) (bindings : Bindings) : Operands :=
  Operands.ofTokens (engine.scope bindings) (engine.tokens text)

/-- The formula of a rule. -/
def formula (engine : Engine) (text : String) (bindings : Bindings) : Except RuleError Formula :=
  if engine.limits.maxRuleLength < text.utf8ByteSize then
    .error (.tooLong text.utf8ByteSize engine.limits.maxRuleLength)
  else Formula.ofOperands engine.limits.maxNestingDepth (engine.operands text bindings)

theorem formula_eq_ok_iff {engine : Engine} {text : String} {b : Bindings} {f : Formula} :
    engine.formula text b = .ok f ↔ text.utf8ByteSize ≤ engine.limits.maxRuleLength ∧
      Formula.ofOperands engine.limits.maxNestingDepth (engine.operands text b) = .ok f := by
  unfold formula
  split
  next h => simp [Nat.not_le.mpr h]
  next h => simp [Nat.le_of_not_lt h]

/-- The verdict of a rule. -/
def evaluate (engine : Engine) (text : String) (bindings : Bindings) : Except RuleError Bool :=
  (engine.formula text bindings).map Formula.verdict

def isValid (engine : Engine) (text : String) (bindings : Bindings) : Bool :=
  (engine.formula text bindings).isOk

/-- Adds a token rule for the kind of this name. -/
def addToken (engine : Engine) (kind pattern : String) (priority : Int) :
    Except RuleError Engine :=
  match TokenKind.ofName? kind with
  | none => .error (.invalidPattern kind .unknownKind)
  | some k =>
    match engine.lexicon.register k pattern priority with
    | .ok lexicon => .ok { engine with lexicon }
    | .error cause => .error (.invalidPattern kind (.badPattern cause))

def addMethod (engine : Engine) (name : String) (f : Callable) : Engine :=
  { engine with registry := engine.registry.addMethod name f }

def addFunction (engine : Engine) (name : String) (f : Callable) : Engine :=
  { engine with registry := engine.registry.addFunction name f }

end Engine

end Verdict
