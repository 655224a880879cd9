import Verdict.Number.Double

namespace Verdict

/-- A regular expression as written in a rule, between slashes and before its flags. -/
structure RegexLiteral where
  pattern : String
  flags : String
  deriving DecidableEq

namespace RegexLiteral

/-- Reads a literal: a slash, the pattern, the last slash and the flags. -/
def ofText? (s : List Char) : Option RegexLiteral :=
  match s with
  | '/' :: body =>
    match body.reverse.span (· != '/') with
    | (flags, '/' :: pattern) =>
      some ⟨String.ofList pattern.reverse, String.ofList flags.reverse⟩
    | _ => none
  | _ => none

def text (re : RegexLiteral) : String :=
  "/" ++ re.pattern ++ "/" ++ re.flags

def hasFlag (re : RegexLiteral) (flag : Char) : Bool :=
  re.flags.toList.contains flag

/-- Whether every match is meant, not the first one alone. -/
def isGlobal (re : RegexLiteral) : Bool :=
  re.hasFlag 'g'

end RegexLiteral

/-- A value. -/
inductive Value where
  | undefined
  | null
  | boolean (b : Bool)
  | integer (n : Int64)
  | float (x : Double)
  | string (s : String)
  | array (items : List Value)
  | regex (re : RegexLiteral)

namespace Value

/-- The name of the type of a value, as messages give it. -/
def typeName : Value → String
  | undefined => "undefined"
  | null => "null"
  | boolean _ => "boolean"
  | integer _ => "integer"
  | float _ => "float"
  | string _ => "string"
  | array _ => "array"
  | regex _ => "regex"

/-- Whether a value is absent. -/
def isNullish : Value → Bool
  | undefined | null => true
  | _ => false

end Value

end Verdict
