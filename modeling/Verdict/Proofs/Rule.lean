import Mathlib.Data.List.Basic
import Verdict.Rule

namespace Verdict

namespace Rule

/-- What a rule can be asked. -/
inductive Call where
  | isTrue
  | isFalse
  | isValid
  | errorText
  | lastFault
  deriving DecidableEq, Repr

/-- What a rule answers. -/
inductive Answer where
  | verdict (verdict : Except RuleError Bool)
  | valid (valid : Bool)
  | errorText (text : String)
  | fault (fault : Option RuleError)

/-- The answer to a call, and the rule after it. -/
def call (rule : Rule) : Call → Answer × Rule
  | .isTrue => (.verdict rule.isTrue.1, rule.isTrue.2)
  | .isFalse => (.verdict rule.isFalse.1, rule.isFalse.2)
  | .isValid => (.valid rule.isValid.1, rule.isValid.2)
  | .errorText => (.errorText rule.errorText, rule)
  | .lastFault => (.fault rule.fault, rule)

/-- The answers to calls, one after another. -/
def answers (rule : Rule) : List Call → List Answer
  | [] => []
  | c :: calls => (rule.call c).1 :: (rule.call c).2.answers calls

end Rule

namespace Engine

/-- The error of a rule, if it has no formula. -/
def fault? (engine : Engine) (text : String) (b : Bindings) : Option RuleError :=
  match engine.formula text b with
  | .ok _ => none
  | .error e => some e

/-- The error of the last check among these calls: there is none without a check. -/
def checkedFault? (engine : Engine) (text : String) (b : Bindings) (earlier : List Rule.Call) :
    Option RuleError :=
  if .isValid ∈ earlier then engine.fault? text b else none

/-- What an engine that keeps nothing answers to a call. -/
def answer (engine : Engine) (text : String) (b : Bindings) (earlier : List Rule.Call) :
    Rule.Call → Rule.Answer
  | .isTrue => .verdict (engine.evaluate text b)
  | .isFalse => .verdict ((engine.evaluate text b).map not)
  | .isValid => .valid (engine.isValid text b)
  | .errorText => .errorText (((engine.checkedFault? text b earlier).map RuleError.message).getD "")
  | .lastFault => .fault (engine.checkedFault? text b earlier)

end Engine

namespace Rule

variable {engine : Engine} {text : String} {b : Bindings} {earlier : List Call} {rule : Rule}

/-- What a rule keeps after these calls: no other formula than its own, and the error of its last
check. -/
structure Keeps (engine : Engine) (text : String) (b : Bindings) (earlier : List Call)
    (rule : Rule) : Prop where
  engine_eq : rule.engine = engine
  text_eq : rule.text = text
  bindings_eq : rule.bindings = b
  formula_ok : ∀ f, rule.formula = some f → engine.formula text b = .ok f
  fault_eq : rule.fault = engine.checkedFault? text b earlier

theorem keeps_ofText (engine : Engine) (text : String) (b : Bindings) :
    (ofText engine text b).Keeps engine text b [] where
  engine_eq := rfl
  text_eq := rfl
  bindings_eq := rfl
  formula_ok _ h := nomatch h
  fault_eq := rfl

theorem checkedFault?_concat {c : Call} (hc : c ≠ .isValid) :
    engine.checkedFault? text b (earlier ++ [c]) = engine.checkedFault? text b earlier := by
  have hmem : Call.isValid ∈ earlier ++ [c] ↔ Call.isValid ∈ earlier := by
    simp [hc.symm]
  simp only [Engine.checkedFault?, hmem]

theorem Keeps.concat {c : Call} (h : rule.Keeps engine text b earlier) (hc : c ≠ .isValid) :
    rule.Keeps engine text b (earlier ++ [c]) :=
  { h with fault_eq := h.fault_eq.trans (checkedFault?_concat hc).symm }

theorem Keeps.isTrue (h : rule.Keeps engine text b earlier) :
    rule.isTrue.1 = engine.evaluate text b ∧ rule.isTrue.2.Keeps engine text b earlier := by
  have hkeeps := h
  obtain ⟨rfl, rfl, rfl, hformula, hfault⟩ := h
  unfold Rule.isTrue Engine.evaluate
  split
  next f hf =>
    rw [hformula f hf]
    exact ⟨rfl, hkeeps⟩
  next =>
    split
    next f hf =>
      rw [hf]
      exact ⟨rfl, rfl, rfl, rfl, fun g hg => Option.some.inj hg ▸ hf, hfault⟩
    next e he =>
      rw [he]
      exact ⟨rfl, hkeeps⟩

theorem Keeps.isValid (h : rule.Keeps engine text b earlier) :
    rule.isValid.1 = engine.isValid text b ∧
      rule.isValid.2.Keeps engine text b (earlier ++ [.isValid]) := by
  have hchecked : engine.checkedFault? text b (earlier ++ [.isValid]) = engine.fault? text b := by
    simp [Engine.checkedFault?]
  obtain ⟨rfl, rfl, rfl, -, -⟩ := h
  unfold Rule.isValid Engine.isValid
  split
  next f hf =>
    rw [Engine.fault?, hf] at hchecked
    rw [hf]
    exact ⟨rfl, rfl, rfl, rfl, fun g hg => Option.some.inj hg ▸ hf, hchecked.symm⟩
  next e he =>
    rw [Engine.fault?, he] at hchecked
    rw [he]
    exact ⟨rfl, rfl, rfl, rfl, fun g hg => (nomatch hg), hchecked.symm⟩

/-- One call is answered as by the engine, and the rule keeps what it has to. -/
theorem Keeps.call (h : rule.Keeps engine text b earlier) (c : Call) :
    (rule.call c).1 = engine.answer text b earlier c ∧
      (rule.call c).2.Keeps engine text b (earlier ++ [c]) := by
  cases c with
  | isTrue =>
    obtain ⟨hverdict, hkeeps⟩ := h.isTrue
    exact ⟨congrArg Answer.verdict hverdict, hkeeps.concat nofun⟩
  | isFalse =>
    obtain ⟨hverdict, hkeeps⟩ := h.isTrue
    refine ⟨?_, hkeeps.concat nofun⟩
    change Answer.verdict (rule.isTrue.1.map not) = _
    rw [hverdict]
    rfl
  | isValid =>
    obtain ⟨hvalid, hkeeps⟩ := h.isValid
    exact ⟨congrArg Answer.valid hvalid, hkeeps⟩
  | errorText =>
    refine ⟨?_, h.concat nofun⟩
    change Answer.errorText ((rule.fault.map RuleError.message).getD "") = _
    rw [h.fault_eq]
    rfl
  | lastFault => exact ⟨congrArg Answer.fault h.fault_eq, h.concat nofun⟩

theorem Keeps.answers (h : rule.Keeps engine text b earlier) (calls : List Call) :
    rule.answers calls =
      calls.mapIdx fun i c => engine.answer text b (earlier ++ calls.take i) c := by
  induction calls generalizing rule earlier with
  | nil => rfl
  | cons c calls ih =>
    obtain ⟨hanswer, hkeeps⟩ := h.call c
    rw [Rule.answers, hanswer, ih hkeeps, List.mapIdx_cons]
    simp

end Rule

/-- In every run of calls, a rule gives the verdict and the validity that its engine gives for its
text and its bindings, and reports the error of the last check before, or none if there was none. -/
theorem answers_agree_with_engine (engine : Engine) (text : String) (b : Bindings)
    (calls : List Rule.Call) :
    (Rule.ofText engine text b).answers calls =
      calls.mapIdx fun i c => engine.answer text b (calls.take i) c := by
  simpa using (Rule.keeps_ofText engine text b).answers calls

end Verdict
