import Verdict.Engine
import Verdict.Proofs.Bindings
import Verdict.Proofs.Operands.Locality

namespace Verdict

namespace Registry

variable {r : Registry} {name other : String} {f : Callable}

theorem function?_addFunction (r : Registry) (name other : String) (f : Callable) :
    (r.addFunction name f).function? other = if other = name then some f else r.function? other :=
  lookup_replace r.functions name other f

theorem method?_addMethod (r : Registry) (name other : String) (f : Callable) :
    (r.addMethod name f).method? other = if other = name then some f else r.method? other :=
  lookup_replace r.methods name other f

@[simp] theorem method?_addFunction (r : Registry) (name other : String) (f : Callable) :
    (r.addFunction name f).method? other = r.method? other :=
  rfl

@[simp] theorem function?_addMethod (r : Registry) (name other : String) (f : Callable) :
    (r.addMethod name f).function? other = r.function? other :=
  rfl

end Registry

namespace Engine

variable {engine : Engine} {text : String} {b : Bindings} {name : String}

/-- Registries that agree on what the tokens of a rule call make the same of it. -/
theorem formula_registry_congr {r : Registry}
    (hfunction : ∀ t ∈ engine.tokens text, t.kind = .function →
      r.function? t.callee = engine.registry.function? t.callee)
    (hmethod : ∀ t ∈ engine.tokens text, t.kind = .method →
      r.method? t.callee = engine.registry.method? t.callee) :
    formula { engine with registry := r } text b = engine.formula text b := by
  have hagrees : ∀ t ∈ engine.tokens text,
      (engine.scope b).AgreesOn (scope { engine with registry := r } b) t :=
    fun t ht => ⟨rfl, fun _ => rfl, hfunction t ht, hmethod t ht⟩
  have hoperands : operands { engine with registry := r } text b = engine.operands text b :=
    Operands.ofTokens_congr hagrees
  rw [formula, formula, hoperands]

theorem formula_addFunction (f : Callable)
    (h : ∀ t ∈ engine.tokens text, t.kind = .function → t.callee ≠ name) :
    (engine.addFunction name f).formula text b = engine.formula text b := by
  refine formula_registry_congr (fun t ht hk => ?_) fun t _ _ => ?_
  · rw [Registry.function?_addFunction, if_neg (h t ht hk)]
  · exact Registry.method?_addFunction _ _ _ _

theorem formula_addMethod (f : Callable)
    (h : ∀ t ∈ engine.tokens text, t.kind = .method → t.callee ≠ name) :
    (engine.addMethod name f).formula text b = engine.formula text b := by
  refine formula_registry_congr (fun t _ _ => ?_) fun t ht hk => ?_
  · exact Registry.function?_addMethod _ _ _ _
  · rw [Registry.method?_addMethod, if_neg (h t ht hk)]

end Engine

/-- A function that is added to an engine leaves all rules as they are that call no function of its
name, and a method those that call no method of its name. One of each kind can have the same name,
and neither hides the other. -/
theorem added_callable_affects_callers (engine : Engine) (name : String) (f : Callable)
    (text : String) (b : Bindings) :
    ((∀ t ∈ engine.tokens text, t.kind = .function → t.callee ≠ name) →
      (engine.addFunction name f).formula text b = engine.formula text b) ∧
    ((∀ t ∈ engine.tokens text, t.kind = .method → t.callee ≠ name) →
      (engine.addMethod name f).formula text b = engine.formula text b) ∧
    ∀ g : Callable,
      let r := ((engine.addFunction name f).addMethod name g).registry
      r.function? name = some f ∧ r.method? name = some g := by
  refine ⟨Engine.formula_addFunction f, Engine.formula_addMethod f, fun g => ⟨?_, ?_⟩⟩
  · simp [Engine.addMethod, Engine.addFunction, Registry.function?_addFunction]
  · simp [Engine.addMethod, Registry.method?_addMethod]

theorem added_callable_affects_callers_nested :
    let engine : Engine := ⟨.ofRules [(.space, " ", 1), (.method, r"\.[a-z]+\(", 1),
      (.function, r"[a-z]+\(", 1), (.comparison .member, "in", 1), (.identifier, "[a-z]", 1),
      (.closeParen, r"\)", 1), (.openBracket, r"\[", 1), (.closeBracket, r"\]", 1)],
      .addFunction .standard "first" fun _ args => .ok (argument args 0), .standard⟩
    let text := "[first(x.trim())] in []"
    let b : Bindings := .ofList [("x", .string "a")]
    let f : Callable := fun _ _ => .error (.notAFunction "none" "f")
    engine.formula text b = .ok (.leaf false) ∧
      (engine.addFunction "trim" f).formula text b = .ok (.leaf false) ∧
      (engine.addMethod "first" f).formula text b = .ok (.leaf false) := by
  intro engine text b f
  have h : engine.formula text b = .ok (.leaf false) := by
    subst engine text b
    rfl
  have hnames : ∀ t ∈ engine.tokens text, (t.kind = .function → t.callee ≠ "trim") ∧
      (t.kind = .method → t.callee ≠ "first") := by
    subst engine text
    decide
  have hfunction := (added_callable_affects_callers engine "trim" f text b).1
    fun t ht => (hnames t ht).1
  have hmethod := (added_callable_affects_callers engine "first" f text b).2.1
    fun t ht => (hnames t ht).2
  exact ⟨h, hfunction.trans h, hmethod.trans h⟩

end Verdict
