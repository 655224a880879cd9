import Verdict.Pattern.Flags
import Verdict.Token.Location
import Verdict.Value.Basic

namespace Verdict

/-- Why a call has no result. -/
inductive CallError where
  /-- The receiver, as a message shows it, has no such method. -/
  | notAFunction (receiver method : String)
  | badRegex (literal : RegexLiteral) (cause : PatternError)
  | other (message : String)
  deriving DecidableEq

def CallError.message : CallError → String
  | notAFunction receiver method => receiver ++ "." ++ method ++ " is not a function"
  | badRegex literal cause =>
    "Invalid regular expression " ++ literal.text ++ ": " ++ cause.message
  | other message => message

/-- What is wrong with the order of the tokens of a rule. -/
inductive SyntaxFault where
  | unexpectedToken (raw : String)
  | unexpected (raw : String)
  | unknownToken (raw : String)
  | unexpectedValue
  | unexpectedEnd (expected : String)
  | tooDeep (limit : Nat)
  | missingOperator
  | missingOpening
  | missingClosing
  | incompleteBefore (raw : String)
  | incomplete
  | incompleteCondition
  deriving DecidableEq, Repr

/-- A text in double quotes as it is, without escapes. -/
def inQuotes (s : String) : String :=
  "\"" ++ s ++ "\""

def SyntaxFault.message : SyntaxFault → String
  | unexpectedToken raw => "Unexpected token " ++ inQuotes raw
  | unexpected raw => "Unexpected " ++ inQuotes raw
  | unknownToken raw => "Unknown token " ++ inQuotes raw
  | unexpectedValue => "Unexpected value"
  | unexpectedEnd expected => "Unexpected end of string. Expected " ++ inQuotes expected
  | tooDeep limit => "Maximum nesting depth of " ++ toString limit ++ " exceeded"
  | missingOperator => "Missing operator"
  | missingOpening => "Missing opening parenthesis"
  | missingClosing => "Missing closing parenthesis"
  | incompleteBefore raw => "Incomplete expression for token " ++ inQuotes raw
  | incomplete => "Incomplete expression"
  | incompleteCondition => "Incomplete and/or condition"

/-- What is wrong with an operand or an argument. -/
inductive TypeFault where
  | call (e : CallError)
  /-- The right side of a membership has this type instead of being an array. -/
  | expectedArray (typeName : String)
  deriving DecidableEq

def TypeFault.message : TypeFault → String
  | call e => e.message
  | expectedArray typeName => "Expected array, got " ++ inQuotes typeName

/-- Why a pattern cannot become a token rule. -/
inductive RuleFault where
  | unknownKind
  | badPattern (cause : PatternError)
  deriving DecidableEq, Repr

def RuleFault.message : RuleFault → String
  | unknownKind => "unknown token type"
  | badPattern cause => cause.message

/-- Why a rule has no verdict. -/
inductive RuleError where
  | malformed (fault : SyntaxFault) (location : Option Location)
  | undefinedVariable (name : String) (location : Location)
  | undefinedFunction (name : String) (location : Location)
  | undefinedMethod (name : String) (location : Location)
  | badType (fault : TypeFault) (location : Option Location)
  /-- The algebra of a rule holds a character that does not belong there. -/
  | badAlgebra (c : Char)
  | invalidPattern (kind : String) (fault : RuleFault)
  | tooLong (length limit : Nat)
  deriving DecidableEq

namespace RuleError

/-- Where the error was found, if that is known. -/
def location? : RuleError → Option Location
  | malformed _ location => location
  | undefinedVariable _ location => some location
  | undefinedFunction _ location => some location
  | undefinedMethod _ location => some location
  | badType _ location => location
  | badAlgebra _ => none
  | invalidPattern _ _ => none
  | tooLong _ _ => none

/-- The end of a message that names a place, empty if none is known. -/
def suffix (location : Option Location) : String :=
  (location.map Location.suffix).getD ""

def message : RuleError → String
  | malformed fault location => fault.message ++ suffix location
  | undefinedVariable name location =>
    "Undefined variable " ++ inQuotes name ++ suffix (some location)
  | undefinedFunction _ location => "undefined is not a function" ++ suffix (some location)
  | undefinedMethod _ location => "undefined is not a function" ++ suffix (some location)
  | badType fault location => fault.message ++ suffix location
  | badAlgebra c => "Unexpected " ++ inQuotes (String.singleton c)
  | invalidPattern kind fault => "Invalid pattern for token " ++ kind ++ ": " ++ fault.message
  | tooLong length limit =>
    "Rule is " ++ toString length ++ " bytes long, the maximum is " ++ toString limit

end RuleError

end Verdict
