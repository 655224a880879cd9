import Verdict.Number.Digits

namespace Verdict

/-- The largest number of bytes of a rule, and the largest depth to which parentheses, arrays and
argument lists nest. -/
structure Limits where
  maxRuleLength : Nat
  maxNestingDepth : Nat
  deriving DecidableEq, Repr

namespace Limits

/-- The limits that hold where nothing else is said. -/
def standard : Limits := ⟨65536, 64⟩

/-- The limits that an environment asks for. A variable that is no number counts for nothing. -/
def ofEnvironment (lookUp : String → Option String) : Limits where
  maxRuleLength :=
    (read? "RULE_MAX_RULE_LENGTH").getD standard.maxRuleLength
  maxNestingDepth :=
    (read? "RULE_MAX_NESTING_DEPTH").getD standard.maxNestingDepth
where
  read? (name : String) : Option Nat := (lookUp name).bind fun s => readWord? s.toList

end Limits

end Verdict
