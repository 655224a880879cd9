import Verdict.Text.Trim
import Verdict.Token.Kind
import Verdict.Token.Location

namespace Verdict

/-- A word of a rule: its kind, its text as it stands in the rule, its value where one is known, and
its place. -/
structure Token where
  kind : TokenKind
  raw : String
  value : Option Value
  location : Location

namespace Token

/-- A token with a value that has been worked out, in the place of the token it began with. -/
def resolved (v : Value) (raw : String) (location : Location) : Token :=
  { kind := .ofValue v, raw, value := some v, location }

/-- Whether a token only separates others. -/
def isTrivia (t : Token) : Bool :=
  t.kind.isTrivia

/-- The name that a method or function token calls. -/
def callee (t : Token) : String :=
  let name := (trim t.raw.toList).dropWhile (· == '.')
  String.ofList (trim (dropLastWhile (· == '(') name))

end Token

end Verdict
