import Verdict.Engine
import Verdict.Proofs.Formula.Acceptance
import Verdict.Proofs.Literal.Escape
import Verdict.Proofs.Literal.Number
import Verdict.Proofs.Operands.Trivia

namespace Verdict

section Literals

variable {scope : Scope} {r : OperandReader} {t c u : Token} {v w : Value} {op : Comparison}

theorem OperandReader.startValue_literal (ht : t.kind.group = .value) (hv : t.value = some v) :
    startValue scope r t = r.hold t true := by
  unfold startValue
  split
  next hk => simp [hk, TokenKind.group] at ht
  next hk => simp [hk, TokenKind.group] at ht
  next hnone => simp [hv] at hnone
  next => rfl
  next hnone _ _ _ => simp [hv] at hnone

open OperandReader in
/-- Two literals with an operator between them are operands as they are. -/
theorem Operands.ofTokens_literals (ht : t.kind.group = .value) (hv : t.value = some v)
    (hc : c.kind = .comparison op) (hu : u.kind.group = .value) (hw : u.value = some w) :
    ofTokens scope [t, c, u] = ⟨[t, c, u], none⟩ := by
  have hstart : ∀ {t : Token}, t.kind.group = .value → t.isTrivia = false ∧ t.kind ≠ .method ∧
      t.kind.startsValue = true := by
    intro t ht
    have hs := TokenKind.startsValue_of_group ht
    refine ⟨TokenKind.isTrivia_of_startsValue hs, fun hk => ?_, hs⟩
    simp [hk, TokenKind.group] at ht
  have hoperator : c.isTrivia = false ∧ c.kind ≠ .method ∧ c.kind.startsValue = false := by
    rw [Token.isTrivia, hc]
    exact ⟨rfl, by simp, rfl⟩
  obtain ⟨hut, hum, hus⟩ := hstart hu
  have hready : start.Ready := ⟨rfl, rfl, rfl, fun _ h => by cases h⟩
  have hrun : run scope start [t, c, u] = ⟨[], some ⟨u, true⟩, [], [c, t], none⟩ := by
    rw [run_cons, step_start hready (hstart ht).2.2, startValue_literal ht hv, run_cons,
      step_significant rfl hoperator.1 fun h => absurd h hoperator.2.1]
    simp only [readToken, settle, hold, start, hoperator.2.2, Bool.false_eq_true, if_false, emit]
    rw [run_cons, step_significant rfl hut fun h => absurd h hum]
    simp only [readToken, settle, hus, if_true, startValue_literal hu hw, hold, run_nil]
    rfl
  have hfold : [t, c, u].foldl (step scope) start = ⟨[], some ⟨u, true⟩, [], [c, t], none⟩ := hrun
  rw [ofTokens, hfold]
  rfl

/-- The formula of a comparison of two literals is what the comparison of their values says. -/
theorem Formula.ofOperands_literals {maxDepth : Nat} {holds : Bool} (ht : t.kind.group = .value)
    (hv : t.value = some v) (hc : c.kind = .comparison op) (hu : u.kind.group = .value)
    (hw : u.value = some w) (hholds : op.holds? v w = some holds) :
    ofOperands maxDepth (Operands.ofTokens scope [t, c, u]) = .ok (.leaf holds) := by
  have hbuilder : (FormulaBuilder.start maxDepth).Expects 0 :=
    ⟨rfl, rfl, rfl, Nat.le_refl 0, by simp [FormulaBuilder.start]⟩
  have hleft : t.operand = v := by simp [Token.operand, hv]
  have hright : u.operand = w := by simp [Token.operand, hw]
  have hmember : op = .member → ∃ items, u.operand = .array items := by
    rw [← Comparison.holds?_isSome_iff op v u.operand, hright, hholds]
    rfl
  obtain ⟨holds', hholds', hrun⟩ := FormulaBuilder.run_comparison hbuilder ht
    (by simp [Token.IsBound, hv]) hc hu (by simp [Token.IsBound, hw]) hmember
  rw [hleft, hright, hholds] at hholds'
  cases hholds'
  rw [Operands.ofTokens_literals ht hv hc hu hw]
  refine ofOperands_eq_ok_iff.mpr ⟨rfl, _, hrun, ?_⟩
  exact FormulaBuilder.finish_eq_ok_iff.mpr ⟨rfl, Nat.le_refl _, rfl, rfl, rfl⟩

end Literals

namespace Numeral

variable (n : Numeral)

theorem group_kind : n.kind.group = .value := by
  unfold kind
  split <;> rfl

/-- A numeral in quotes is the string of its text. -/
theorem value?_quoted : Literal.value? .string (String.ofList ('"' :: (n.text ++ ['"']))) =
    some (.string (String.ofList n.text)) := by
  have hslash : '\\' ∉ n.text := n.not_mem_text (by decide) (by decide) rfl
  rw [Literal.value?, String.toList_ofList, Literal.unquote_quoted (.inl rfl),
    Literal.unescapeFrom_plain hslash]

/-- The verdict of the comparison is that of the two values, under any bindings. -/
theorem evaluate_comparison (limits : Limits) (b : Bindings)
    (h : n.comparison.utf8ByteSize ≤ limits.maxRuleLength) :
    (Engine.standard limits).evaluate n.comparison b =
      .ok (n.literal.looseEq (.string (String.ofList n.text))) := by
  obtain ⟨l₁, l₂, l₃, l₄, l₅, hscan⟩ := n.scan_comparison
  have hnumber : (Lexicon.makeToken n.kind n.text l₁).isTrivia = false :=
    TokenKind.isTrivia_of_startsValue (TokenKind.startsValue_of_group n.group_kind)
  have hsignificant : significant (Lexicon.standard.scan n.comparison) =
      [Lexicon.makeToken n.kind n.text l₁, Lexicon.makeToken (.comparison .equal) ['=', '='] l₃,
        Lexicon.makeToken .string ('"' :: (n.text ++ ['"'])) l₅] := by
    rw [hscan, significant_cons hnumber]
    rfl
  have hformula : (Engine.standard limits).formula n.comparison b =
      .ok (.leaf (n.literal.looseEq (.string (String.ofList n.text)))) := by
    refine Engine.formula_eq_ok_iff.mpr ⟨h, ?_⟩
    obtain ⟨htokens, hfault⟩ := Operands.ofTokens_significant
      ((Engine.standard limits).scope b) (Lexicon.standard.scan n.comparison)
    rw [hsignificant] at htokens hfault
    refine (Formula.ofOperands_congr htokens.symm hfault.symm).trans ?_
    exact Formula.ofOperands_literals n.group_kind n.value?_text rfl rfl n.value?_quoted rfl
  rw [Engine.evaluate, hformula]
  exact congrArg Except.ok (Formula.verdict_leaf _)

end Numeral

/-- A rule that compares a numeral with the same text in quotes has a verdict under any bindings. It
is true if the numeral is an integer of 64 bits, and otherwise if the number is finite and its
decimal, where it has one, is the one that the text is read as. -/
theorem numeral_equals_quoted_iff (limits : Limits) (n : Numeral) (b : Bindings)
    (h : n.comparison.utf8ByteSize ≤ limits.maxRuleLength) :
    ∃ verdict, (Engine.standard limits).evaluate n.comparison b = .ok verdict ∧
      (verdict = true ↔
        (n.fraction = [] ∧ Int64.minValue.toInt ≤ n.signed ∧
          n.signed ≤ Int64.maxValue.toInt) ∨ n.Agrees) := by
  refine ⟨_, n.evaluate_comparison limits b h, ?_⟩
  rw [n.looseEq_text_iff, n.isSome_readInteger?_text]

theorem numeral_equals_quoted_iff_fraction :
    let n : Numeral := ⟨true, ['1', '2'], ['5', '0'], by decide, by decide⟩
    n.comparison = "-12.50 == \"-12.50\"" ∧
      n.comparison.utf8ByteSize ≤ Limits.standard.maxRuleLength ∧
      (Engine.standard .standard).evaluate n.comparison .empty = .ok true := by
  intro n
  have hlength : n.comparison.utf8ByteSize ≤ Limits.standard.maxRuleLength := by decide
  have hagrees : n.Agrees := by decide +kernel
  obtain ⟨verdict, hverdict, htrue⟩ := numeral_equals_quoted_iff .standard n .empty hlength
  rw [htrue.mpr (.inr hagrees)] at hverdict
  exact ⟨by decide, hlength, hverdict⟩

/-- An integer beyond 64 bits is rounded, and a number with a fraction may be rounded twice on its
way to a decimal; their texts are not. -/
theorem numeral_differs_from_quoted :
    let long : Numeral := ⟨false, "9223372036854775809".toList, [], by decide, by decide⟩
    let short : Numeral := ⟨false, "4194304".toList, "23".toList, by decide, by decide⟩
    long.comparison = "9223372036854775809 == \"9223372036854775809\"" ∧
      (Engine.standard .standard).evaluate long.comparison .empty = .ok false ∧
      short.comparison = "4194304.23 == \"4194304.23\"" ∧
      (Engine.standard .standard).evaluate short.comparison .empty = .ok false := by
  intro long short
  have hlong : long.literal.looseEq (.string (String.ofList long.text)) = false := by
    decide +kernel
  have hshort : short.literal.looseEq (.string (String.ofList short.text)) = false := by
    decide +kernel
  refine ⟨by decide, ?_, by decide, ?_⟩
  · rw [long.evaluate_comparison .standard .empty (by decide), hlong]
  · rw [short.evaluate_comparison .standard .empty (by decide), hshort]

end Verdict
