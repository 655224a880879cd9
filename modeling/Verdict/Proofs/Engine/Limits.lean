import Verdict.Engine
import Verdict.Proofs.Formula.Depth
import Verdict.Proofs.Operands.Depth

namespace Verdict

/-- The errors that say that a limit is exceeded. -/
def RuleError.Exceeds (limits : Limits) : RuleError → Prop
  | tooLong _ limit => limit = limits.maxRuleLength
  | malformed (.tooDeep limit) _ => limit = limits.maxNestingDepth
  | _ => False

namespace Engine

variable {engine : Engine} {text : String} {b : Bindings} {limits : Limits}

theorem ofOperands_wider (hdepth : engine.limits.maxNestingDepth ≤ limits.maxNestingDepth) :
    (∃ e, Formula.ofOperands engine.limits.maxNestingDepth (engine.operands text b) = .error e ∧
      e.Exceeds engine.limits) ∨
    Formula.ofOperands engine.limits.maxNestingDepth (engine.operands text b) =
      Formula.ofOperands limits.maxNestingDepth ({ engine with limits }.operands text b) := by
  have hgroups : ∀ operands : Operands,
      (∃ e, Formula.ofOperands engine.limits.maxNestingDepth operands = .error e ∧
        e.Exceeds engine.limits) ∨
      Formula.ofOperands engine.limits.maxNestingDepth operands =
        Formula.ofOperands limits.maxNestingDepth operands := by
    intro operands
    rcases Formula.ofOperands_limited hdepth operands with ⟨_, he, location, rfl⟩ | heq
    · exact .inl ⟨_, he, rfl⟩
    · exact .inr heq
  have hwithin := Operands.ofTokens_within (engine.scope b) hdepth (engine.tokens text)
  change engine.operands text b = { engine with limits }.operands text b ∨
    (∃ location, (engine.operands text b).fault =
      some (.malformed (.tooDeep engine.limits.maxNestingDepth) location)) ∧
    (engine.operands text b).tokens <+: ({ engine with limits }.operands text b).tokens at hwithin
  generalize engine.operands text b = operands at hwithin ⊢
  generalize { engine with limits }.operands text b = wider at hwithin ⊢
  rcases hwithin with rfl | ⟨⟨location, hf⟩, hread⟩
  · exact hgroups operands
  · obtain ⟨tokens, fault⟩ := operands
    cases hf
    have hcut := Formula.ofOperands_prefix engine.limits.maxNestingDepth
      (.malformed (.tooDeep engine.limits.maxNestingDepth) location) hread
    rcases hcut with he | heq
    · exact .inl ⟨_, he, rfl⟩
    · rw [heq]
      exact hgroups wider

theorem formula_wider (hlength : engine.limits.maxRuleLength ≤ limits.maxRuleLength)
    (hdepth : engine.limits.maxNestingDepth ≤ limits.maxNestingDepth) :
    (∃ e, engine.formula text b = .error e ∧ e.Exceeds engine.limits) ∨
      engine.formula text b = { engine with limits }.formula text b := by
  unfold formula
  by_cases hlong : engine.limits.maxRuleLength < text.utf8ByteSize
  · rw [if_pos hlong]
    exact .inl ⟨_, rfl, rfl⟩
  · by_cases hlong' : limits.maxRuleLength < text.utf8ByteSize
    · omega
    · rw [if_neg hlong, if_neg hlong']
      exact ofOperands_wider hdepth

end Engine

/-- Within narrower limits, a rule exceeds them, or else it has the same formula or the same error.
While it is read, no more lists are open than may be nested, and no more groups lie within each other
in its formula. -/
theorem formula_within_limits (engine : Engine) (limits : Limits) (text : String) (b : Bindings)
    (hlength : engine.limits.maxRuleLength ≤ limits.maxRuleLength)
    (hdepth : engine.limits.maxNestingDepth ≤ limits.maxNestingDepth) :
    ((∃ e, engine.formula text b = .error e ∧ e.Exceeds engine.limits) ∨
      engine.formula text b = { engine with limits }.formula text b) ∧
    (∀ read, read <+: engine.tokens text →
      (OperandReader.run (engine.scope b) .start read).lists.length ≤
        engine.limits.maxNestingDepth) ∧
    ∀ f, engine.formula text b = .ok f → f.nesting ≤ engine.limits.maxNestingDepth :=
  ⟨Engine.formula_wider hlength hdepth,
    fun _ _ => OperandReader.length_lists_run (Nat.zero_le _),
    fun _ hf => Formula.nesting_le_of_ofOperands (Engine.formula_eq_ok_iff.mp hf).2⟩

theorem formula_within_limits_nested :
    let engine : Engine := ⟨.ofRules [(.space, " ", 1), (.comparison .member, "in", 1),
      (.openParen, r"\(", 1), (.closeParen, r"\)", 1), (.openBracket, r"\[", 1),
      (.closeBracket, r"\]", 1)], .standard, ⟨14, 2⟩⟩
    let text := "(([[]] in []))"
    let f : Formula := .group (.group (.leaf false))
    engine.limits.maxNestingDepth ≤ Limits.standard.maxNestingDepth ∧
      engine.formula text .empty = .ok f ∧ f.nesting ≤ 2 ∧
      (∀ read, read <+: engine.tokens text →
        (OperandReader.run (engine.scope .empty) .start read).lists.length ≤ 2) ∧
      { engine with limits := .standard }.formula text .empty = .ok f := by
  intro engine text f
  have h : engine.formula text .empty = .ok f := by
    subst engine text f
    rfl
  have hdepth : engine.limits.maxNestingDepth ≤ Limits.standard.maxNestingDepth := by decide
  obtain ⟨hwider, hlists, hnesting⟩ :=
    formula_within_limits engine .standard text .empty (by decide) hdepth
  refine ⟨hdepth, h, hnesting f h, hlists, ?_⟩
  rcases hwider with ⟨e, he, _⟩ | heq
  · cases h.symm.trans he
  · exact heq.symm.trans h

end Verdict
