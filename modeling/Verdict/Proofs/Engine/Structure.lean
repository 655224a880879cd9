import Verdict.Engine
import Verdict.Proofs.Bindings
import Verdict.Proofs.Formula.Outline
import Verdict.Proofs.Operands.Twins

namespace Verdict

theorem Formula.ofOperands_rebound (scope : Scope) (b' : Bindings) (tokens : List Token)
    {maxDepth : Nat} {f : Formula}
    (h : ofOperands maxDepth (Operands.ofTokens scope tokens) = .ok f)
    (hk' : ∀ t ∈ tokens, { scope with bindings := b' }.Knows t) :
    (∃ g, ofOperands maxDepth (Operands.ofTokens { scope with bindings := b' } tokens) = .ok g ∧
      g.outline = f.outline) ∨
    ∃ fault location, ofOperands maxDepth (Operands.ofTokens { scope with bindings := b' } tokens) =
      .error (.badType fault location) := by
  obtain ⟨hfault, _⟩ := ofOperands_eq_ok_iff.mp h
  have htwins := Operands.ofTokens_twins (Scope.knows_of_ofOperands h) hk' hfault
  generalize Operands.ofTokens { scope with bindings := b' } tokens = operands' at htwins ⊢
  obtain ⟨tokens', fault'⟩ := operands'
  rcases htwins with ⟨rfl, hx⟩ | ⟨cause, location, read, rfl, hread, hx⟩
  · rcases ofTokens_twins h hx with hg | ⟨_, he, typeName, rfl⟩
    · exact .inl hg
    · exact .inr ⟨_, _, he⟩
  · rcases ofOperands_cut h hread hx (.badType (.call cause) location) with
      he | ⟨_, he, typeName, rfl⟩
    · exact .inr ⟨_, _, he⟩
    · exact .inr ⟨_, _, he⟩

namespace Engine

variable {engine : Engine} {text : String} {b b' : Bindings} {f g : Formula}

theorem formula_rebound (h : engine.formula text b = .ok f)
    (hk' : ∀ t ∈ engine.tokens text, (engine.scope b').Knows t) :
    (∃ g, engine.formula text b' = .ok g ∧ g.outline = f.outline) ∨
      ∃ fault location, engine.formula text b' = .error (.badType fault location) := by
  obtain ⟨hlength, hf⟩ := formula_eq_ok_iff.mp h
  have hscope : engine.scope b' = { engine.scope b with bindings := b' } := rfl
  rw [formula, if_neg (Nat.not_lt.mpr hlength), operands, hscope]
  rw [hscope] at hk'
  exact Formula.ofOperands_rebound (engine.scope b) b' (engine.tokens text) hf hk'

theorem outline_eq_of_formula (h : engine.formula text b = .ok f)
    (h' : engine.formula text b' = .ok g) : g.outline = f.outline := by
  have hk' := Scope.knows_of_ofOperands (formula_eq_ok_iff.mp h').2
  rcases formula_rebound h hk' with ⟨g', hg', houtline⟩ | ⟨fault, location, he⟩
  · cases h'.symm.trans hg'
    exact houtline
  · cases h'.symm.trans he

theorem formula_of_more_bindings (h : engine.formula text b = .ok f)
    (hnames : ∀ name, b.contains name = true → b'.contains name = true) :
    (∃ g, engine.formula text b' = .ok g) ∨
      ∃ fault location, engine.formula text b' = .error (.badType fault location) := by
  have hk := Scope.knows_of_ofOperands (formula_eq_ok_iff.mp h).2
  have hk' : ∀ t ∈ engine.tokens text, (engine.scope b').Knows t := by
    intro t ht
    obtain ⟨hbound, hfunction, hmethod⟩ := hk t ht
    exact ⟨fun hid hv => hnames t.raw (hbound hid hv), hfunction, hmethod⟩
  rcases formula_rebound h hk' with ⟨g, hg, _⟩ | he
  · exact .inl ⟨g, hg⟩
  · exact .inr he

end Engine

/-- The algebra of a rule is the same for all values of its variables, but for the digits. If a rule
has a formula and no fewer variables are bound, then it has one again or there is an error of
types. -/
theorem formula_structure (engine : Engine) (text : String) (b b' : Bindings) (f : Formula)
    (h : engine.formula text b = .ok f) :
    (∀ g mark, engine.formula text b' = .ok g → blotted mark g.text = blotted mark f.text) ∧
    ((∀ name, b.contains name = true → b'.contains name = true) →
      (∃ g, engine.formula text b' = .ok g) ∨
        ∃ fault location, engine.formula text b' = .error (.badType fault location)) := by
  refine ⟨fun g mark hg => ?_, Engine.formula_of_more_bindings h⟩
  rw [← Formula.blotted_text_outline, Engine.outline_eq_of_formula h hg,
    Formula.blotted_text_outline]

theorem formula_structure_method :
    let engine : Engine := ⟨.ofRules [(.space, " ", 1), (.method, r"\.[a-z]+\(", 1),
      (.comparison .equal, "==", 1), (.identifier, "[a-z]", 1), (.openParen, r"\(", 1),
      (.closeParen, r"\)", 1)], .standard, .standard⟩
    let text := "(x == y.trim())"
    let b : Bindings := .ofList [("x", .string "a"), ("y", .string "a")]
    let b' := b.insert "X" (.string "b")
    let f : Formula := .group (.leaf true)
    let g : Formula := .group (.leaf false)
    engine.formula text b = .ok f ∧ engine.formula text b' = .ok g ∧
      blotted '_' g.text = blotted '_' f.text ∧
      ((∃ g, engine.formula text b' = .ok g) ∨
        ∃ fault location, engine.formula text b' = .error (.badType fault location)) := by
  intro engine text b b' f g
  have h : engine.formula text b = .ok f := by
    subst engine text b f
    rfl
  have h' : engine.formula text b' = .ok g := by
    subst engine text b' g b
    rfl
  have hstructure := formula_structure engine text b b' f h
  exact ⟨h, h', hstructure.1 g '_' h', hstructure.2 fun _ hn => Bindings.contains_insert hn⟩

end Verdict
