import Verdict.Proofs.Check.SyntaxOnly
import Verdict.Proofs.Formula.Reduction

namespace Verdict

theorem Connective.symbol_injective {op op' : Connective} (h : op.symbol = op'.symbol) :
    op = op' := by
  cases op <;> cases op' <;> simp_all [symbol]

namespace Formula

variable {f g : Formula} {p q : List Char}

theorem digit_injective {holds holds' : Bool} (h : digit holds = digit holds') :
    holds = holds' := by
  cases holds <;> cases holds' <;> simp_all [digit]

theorem digit_ne_paren (holds : Bool) : digit holds ≠ ')' := by
  cases holds <;> decide

theorem append_algebra_group (p : List Char) (f : Formula) :
    p ++ (group f).algebra = p ++ ['('] ++ f.algebra ++ [')'] := by
  simp

theorem append_algebra_binary (p : List Char) (op : Connective) (left right : Formula) :
    p ++ (binary op left right).algebra = p ++ left.algebra ++ [op.symbol] ++ right.algebra := by
  simp

/-- A text after which a chain can begin: no connective ends it. -/
def BeforeChain (p : List Char) : Prop := ∀ op : Connective, p.getLast? ≠ some op.symbol

theorem beforeChain_nil : BeforeChain [] := nofun

theorem beforeChain_concat_paren (p : List Char) : BeforeChain (p ++ ['(']) := by
  intro op
  rw [List.getLast?_concat]
  cases op <;> decide

theorem not_beforeChain_concat_symbol (p : List Char) (op : Connective) :
    ¬ BeforeChain (p ++ [op.symbol]) :=
  fun h => h op List.getLast?_concat

/-- Where a formula ends a text, no other operand does: read from the end, an operand is a digit, or
begins at the parenthesis that its last character closes. -/
def Ends (f : Formula) : Prop :=
  ∀ g p q, g.Chained → g.IsOperand → p ++ f.algebra = q ++ g.algebra → p = q ∧ f = g

theorem ends_leaf (holds : Bool) : (leaf holds).Ends := by
  intro g p q hg ho h
  cases hg with
  | leaf holds' =>
    rw [algebra_leaf, algebra_leaf] at h
    obtain ⟨hp, hdigit⟩ := List.append_inj' h rfl
    exact ⟨hp, congrArg leaf (digit_injective (List.cons.inj hdigit).1)⟩
  | group =>
    rw [algebra_leaf, append_algebra_group] at h
    obtain ⟨_, hdigit⟩ := List.append_inj' h rfl
    exact absurd (List.cons.inj hdigit).1 (digit_ne_paren holds)
  | binary => cases ho

/-- Two chains between parentheses are compared where the parentheses open. -/
theorem ends_group (hf : ∀ g p q, g.Chained → BeforeChain p → BeforeChain q →
    p ++ f.algebra = q ++ g.algebra → p = q ∧ f = g) : (group f).Ends := by
  intro g p q hg ho h
  cases hg with
  | leaf holds =>
    rw [algebra_leaf, append_algebra_group] at h
    obtain ⟨_, hdigit⟩ := List.append_inj' h rfl
    exact absurd (List.cons.inj hdigit).1.symm (digit_ne_paren holds)
  | group hg =>
    rw [append_algebra_group, append_algebra_group] at h
    obtain ⟨hinner, _⟩ := List.append_inj' h rfl
    obtain ⟨hparen, rfl⟩ :=
      hf _ _ _ hg (beforeChain_concat_paren p) (beforeChain_concat_paren q) hinner
    exact ⟨List.append_cancel_right hparen, rfl⟩
  | binary => cases ho

/-- An operand that ends a text is no chain of several operands that begins at the same place. -/
theorem Ends.chain (hf : f.Ends) (hg : g.Chained) (hp : BeforeChain p)
    (h : p ++ f.algebra = q ++ g.algebra) : p = q ∧ f = g := by
  cases hg with
  | leaf holds => exact hf _ p q (.leaf holds) trivial h
  | group hg => exact hf _ p q (.group hg) trivial h
  | @binary op left right _ hr ho =>
    rw [append_algebra_binary] at h
    obtain ⟨rfl, _⟩ := hf right p _ hr ho h
    exact absurd hp (not_beforeChain_concat_symbol _ op)

/-- Of a chain, an operand that ends a text is the last one. -/
theorem Chained.ends_or_chain (hf : f.Chained) : (f.IsOperand → f.Ends) ∧
    ∀ g p q, g.Chained → BeforeChain p → BeforeChain q → p ++ f.algebra = q ++ g.algebra →
      p = q ∧ f = g := by
  induction hf with
  | leaf holds =>
    exact ⟨fun _ => ends_leaf holds, fun g p q hg hp _ h => (ends_leaf holds).chain hg hp h⟩
  | group _ ih =>
    have hends := ends_group ih.2
    exact ⟨fun _ => hends, fun g p q hg hp _ h => hends.chain hg hp h⟩
  | @binary op left right _ _ ho ihl ihr =>
    refine ⟨False.elim, fun g p q hg hp hq h => ?_⟩
    have hright : right.Ends := ihr.1 ho
    rw [append_algebra_binary] at h
    cases hg with
    | leaf holds =>
      obtain ⟨rfl, _⟩ := hright _ _ q (.leaf holds) trivial h
      exact absurd hq (not_beforeChain_concat_symbol _ op)
    | group hg =>
      obtain ⟨rfl, _⟩ := hright _ _ q (.group hg) trivial h
      exact absurd hq (not_beforeChain_concat_symbol _ op)
    | @binary op' left' right' hl' hr' ho' =>
      rw [append_algebra_binary] at h
      obtain ⟨hbefore, rfl⟩ := hright right' _ _ hr' ho' h
      obtain ⟨hleft, hsymbol⟩ := List.append_inj' hbefore rfl
      obtain ⟨rfl, rfl⟩ := ihl.2 left' p q hl' hp hq hleft
      rw [Connective.symbol_injective (List.cons.inj hsymbol).1]
      exact ⟨rfl, rfl⟩

theorem Chained.algebra_injective (hf : f.Chained) (hg : g.Chained)
    (h : f.algebra = g.algebra) : f = g :=
  (hf.ends_or_chain.2 g [] [] hg beforeChain_nil beforeChain_nil h).2

theorem Shaped.algebra_injective (hf : f.Shaped) (hg : g.Shaped) (h : f.algebra = g.algebra) :
    f = g := by
  rcases hf with rfl | hf
  · rcases hg with rfl | hg
    · rfl
    · exact absurd (h.symm.trans algebra_empty) hg.algebra_ne_nil
  · rcases hg with rfl | hg
    · exact absurd (h.trans algebra_empty) hf.algebra_ne_nil
    · exact hf.algebra_injective hg h

theorem Shaped.text_injective (hf : f.Shaped) (hg : g.Shaped) (h : f.text = g.text) : f = g :=
  hf.algebra_injective hg (String.ofList_injective h)

end Formula

theorem Engine.shaped_of_formula {engine : Engine} {text : String} {b : Bindings} {f : Formula}
    (h : engine.formula text b = .ok f) : f.Shaped :=
  Formula.ofOperands_shaped (formula_eq_ok_iff.mp h).2

/-- What an explained check shows is the algebra and the verdict of the formula of its rule. -/
theorem Check.formula_of_explained {check : Check} {algebra : String} {holds : Bool}
    (h : check.run = .ok (.explained algebra holds)) :
    ∃ b f, check.bindings = .ok b ∧
      (Engine.standard check.limits).formula check.text b = .ok f ∧
      algebra = f.text ∧ holds = f.verdict := by
  unfold run at h
  cases hb : check.bindings with
  | error e => simp [hb, bind, Except.bind] at h
  | ok b =>
    cases hs : check.syntaxOnly with
    | true =>
      cases hf : formula (Engine.standard check.limits) check.text
          (bindMissing b ((Engine.standard check.limits).tokens check.text)) <;>
        simp [hb, hs, hf, bind, Except.bind, pure, Except.pure] at h
    | false =>
      cases hv : check.vars with
      | none => simp [hb, hs, hv, bind, Except.bind, throw, throwThe, MonadExceptOf.throw] at h
      | some json =>
        cases hf : formula (Engine.standard check.limits) check.text b with
        | error e => simp [hb, hs, hv, hf, bind, Except.bind] at h
        | ok f =>
          cases hx : check.explain with
          | false => simp [hb, hs, hv, hf, hx, bind, Except.bind, pure, Except.pure] at h
          | true =>
            simp only [hb, hs, hv, hf, hx, bind, Except.bind, pure, Except.pure] at h
            cases h
            exact ⟨b, f, rfl, formula_eq_ok_iff.mp hf, rfl, rfl⟩

/-- Formulas of the shape that rules have are the same if their algebras are. So rules that are
explained by the same algebra have the same formula, and the same verdict. -/
theorem algebra_determines_formula :
    (∀ f g : Formula, f.Shaped → g.Shaped → f.text = g.text → f = g) ∧
    ∀ (check other : Check) (algebra : String) (holds holds' : Bool),
      check.run = .ok (.explained algebra holds) → other.run = .ok (.explained algebra holds') →
      holds = holds' ∧ ∃ b b' f, check.bindings = .ok b ∧ other.bindings = .ok b' ∧
        (Engine.standard check.limits).formula check.text b = .ok f ∧
        (Engine.standard other.limits).formula other.text b' = .ok f := by
  refine ⟨fun f g hf hg h => hf.text_injective hg h, ?_⟩
  intro check other algebra holds holds' h h'
  obtain ⟨b, f, hb, hf, halgebra, rfl⟩ := Check.formula_of_explained h
  obtain ⟨b', g, hb', hg, halgebra', rfl⟩ := Check.formula_of_explained h'
  have hsame : f = g := (Engine.shaped_of_formula hf).text_injective (Engine.shaped_of_formula hg)
    (halgebra.symm.trans halgebra')
  subst g
  exact ⟨rfl, b, b', f, hb, hb', hf, hg⟩

theorem algebra_determines_formula_group :
    let f : Formula := .binary .and (.leaf true) (.group (.binary .or (.leaf false) (.leaf true)))
    let check : Check :=
      ⟨"1 = 1 && (2 > 3 or 'a' == 'a')", some "\x7b\x7d", false, true, .standard⟩
    let other : Check :=
      ⟨"x in [null] and ( [] = y || y <= 'b' )", some "\x7b\"x\": null, \"Y\": \"a\"\x7d",
        false, true, .standard⟩
    f.Shaped ∧ f.text = "1&(0|1)" ∧ check.run = .ok (.explained "1&(0|1)" true) ∧
      other.run = .ok (.explained "1&(0|1)" true) ∧
      ∃ b b', check.bindings = .ok b ∧ other.bindings = .ok b' ∧
        (Engine.standard .standard).formula check.text b = .ok f ∧
        (Engine.standard .standard).formula other.text b' = .ok f := by
  intro f check other
  have hshaped : f.Shaped :=
    .inr (.binary (.leaf true) (.group (.binary (.leaf false) (.leaf true) trivial)) trivial)
  have htext : f.text = "1&(0|1)" := by
    simp [f, Formula.text, Formula.digit, Connective.symbol]
  have hruns : check.run = .ok (.explained "1&(0|1)" true) ∧
      other.run = .ok (.explained "1&(0|1)" true) := by decide +kernel
  obtain ⟨b, g, hb, hg, halgebra, _⟩ := Check.formula_of_explained hruns.1
  obtain ⟨_, b₁, b', g', hb₁, hb', hg₁, hg'⟩ :=
    algebra_determines_formula.2 check other _ true true hruns.1 hruns.2
  have hsame : g = f := algebra_determines_formula.1 g f (Engine.shaped_of_formula hg) hshaped
    (halgebra.symm.trans htext.symm)
  cases hb.symm.trans hb₁
  cases hg.symm.trans hg₁
  subst hsame
  exact ⟨hshaped, htext, hruns.1, hruns.2, b, b', hb, hb', hg, hg'⟩

end Verdict
