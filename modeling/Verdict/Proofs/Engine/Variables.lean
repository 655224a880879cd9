import Verdict.Engine
import Verdict.Proofs.Lexicon.Cutting
import Verdict.Proofs.Operands.Known
import Verdict.Proofs.Operands.Locality

namespace Verdict

namespace Engine

variable {engine : Engine} {text : String} {b b' : Bindings}

theorem get?_of_formula {f : Formula} (h : engine.formula text b = .ok f) {t : Token}
    (ht : t ∈ engine.tokens text) (hk : t.kind = .identifier) : ∃ v, b.get? t.raw = some v := by
  obtain ⟨_, hf⟩ := formula_eq_ok_iff.mp h
  have hknown : (engine.scope b).Knows t := Scope.knows_of_ofOperands hf t ht
  have hvalue : t.value = none := by
    rw [Lexicon.value_of_mem_scan ht, hk]
    rfl
  exact Option.isSome_iff_exists.mp (hknown.bound hk hvalue)

theorem formula_congr
    (h : ∀ t ∈ engine.tokens text, t.kind = .identifier → b'.get? t.raw = b.get? t.raw) :
    engine.formula text b' = engine.formula text b := by
  have hagrees : ∀ t ∈ engine.tokens text, (engine.scope b).AgreesOn (engine.scope b') t :=
    fun t ht => ⟨rfl, h t ht, fun _ => rfl, fun _ => rfl⟩
  have hoperands : engine.operands text b' = engine.operands text b :=
    Operands.ofTokens_congr hagrees
  rw [formula, formula, hoperands]

end Engine

/-- The variables of a rule with a formula are all bound. Of two bindings that agree on the variables
of a rule, one makes the same of it as the other. -/
theorem formula_depends_on_variables (engine : Engine) (text : String) (b : Bindings) :
    (∀ f, engine.formula text b = .ok f →
      ∀ t ∈ engine.tokens text, t.kind = .identifier → ∃ v, b.get? t.raw = some v) ∧
    ∀ b' : Bindings,
      (∀ t ∈ engine.tokens text, t.kind = .identifier → b'.get? t.raw = b.get? t.raw) →
      engine.formula text b' = engine.formula text b :=
  ⟨fun _ hf _ ht hk => Engine.get?_of_formula hf ht hk, fun _ h => Engine.formula_congr h⟩

theorem formula_depends_on_variables_list :
    let engine : Engine := ⟨.ofRules [(.space, " ", 1), (.method, r"\.[a-z]+\(", 1),
      (.comparison .member, "in", 1), (.identifier, "[a-z]", 1), (.closeParen, r"\)", 1),
      (.openBracket, r"\[", 1), (.closeBracket, r"\]", 1)], .standard, .standard⟩
    let text := "[x.trim()] in []"
    let b : Bindings := .ofList [("x", .string "a")]
    let b' : Bindings := .ofList [("y", .null), ("X", .string "a")]
    engine.formula text b = .ok (.leaf false) ∧ (∃ v, b.get? "x" = some v) ∧
      engine.formula text b' = .ok (.leaf false) := by
  intro engine text b b'
  have h : engine.formula text b = .ok (.leaf false) := by
    subst engine text b
    rfl
  have hname : ∀ t ∈ engine.tokens text, t.kind = .identifier → t.raw = "x" := by
    subst engine text
    decide
  obtain ⟨t, ht, hk⟩ : ∃ t ∈ engine.tokens text, t.kind = .identifier := by
    subst engine text
    decide
  obtain ⟨hbound, hagree⟩ := formula_depends_on_variables engine text b
  have hsame : b'.get? "x" = b.get? "x" := rfl
  refine ⟨h, hname t ht hk ▸ hbound _ h t ht hk, ?_⟩
  exact (hagree b' fun u hu hku => by rw [hname u hu hku, hsame]).trans h

end Verdict
