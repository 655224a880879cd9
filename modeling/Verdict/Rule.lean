import Verdict.Engine

namespace Verdict

/-- A rule, its variables and its engine, the formula if it has been worked out, and the error of
the last check. -/
structure Rule where
  text : String
  bindings : Bindings
  engine : Engine
  formula : Option Formula
  fault : Option RuleError

namespace Rule

/-- A rule of which nothing has been worked out. -/
def ofText (engine : Engine) (text : String) (bindings : Bindings) : Rule :=
  ⟨text, bindings, engine, none, none⟩

/-- The verdict of a rule. A formula that has been worked out is not worked out again. -/
def isTrue (rule : Rule) : Except RuleError Bool × Rule :=
  match rule.formula with
  | some f => (.ok f.verdict, rule)
  | none =>
    match rule.engine.formula rule.text rule.bindings with
    | .ok f => (.ok f.verdict, { rule with formula := some f })
    | .error e => (.error e, rule)

/-- The opposite of the verdict of a rule. -/
def isFalse (rule : Rule) : Except RuleError Bool × Rule :=
  let (verdict, rule) := rule.isTrue
  (verdict.map not, rule)

/-- Checks a rule: keeps its formula, or its error. -/
def isValid (rule : Rule) : Bool × Rule :=
  match rule.engine.formula rule.text rule.bindings with
  | .ok f => (true, { rule with formula := some f, fault := none })
  | .error e => (false, { rule with formula := none, fault := some e })

/-- The text of the error of the last check, empty if there is none. -/
def errorText (rule : Rule) : String :=
  (rule.fault.map RuleError.message).getD ""

end Rule

end Verdict
