import Verdict.Fault
import Verdict.Pattern.Reader
import Verdict.Pattern.Template

namespace Verdict.RegexLiteral

/-- The flags that bear on matching; others are allowed and mean nothing. -/
def patternFlags (re : RegexLiteral) : PatternFlags :=
  { ignoreCase := re.hasFlag 'i', multiLine := re.hasFlag 'm', dotAll := re.hasFlag 's' }

/-- Reads the pattern of a literal. -/
def compile (re : RegexLiteral) : Except CallError Regex :=
  match Regex.read re.patternFlags re.pattern.toList with
  | .ok regex => .ok regex
  | .error cause => .error (.badRegex re cause)

end Verdict.RegexLiteral
