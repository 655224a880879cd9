import Verdict.Proofs.Bindings
import Verdict.Proofs.Formula.Exchange
import Verdict.Proofs.Operands.Known
import Verdict.Proofs.Operands.Neighbours

namespace Verdict

/-- What becomes of a part of a rule, with its variables and with all of them undefined. -/
def Piece.Twins : Piece → Token → Token → Prop
  | other t, a, b => t.kind.startsValue = false ∧ a = t ∧ b = t
  | value first _, a, b => first.kind.startsValue = true ∧ a.kind.group = .value ∧
      b.kind.group = .value ∧ b.value ≠ none ∧ (first.IsVariable → b.operand = .undefined) ∧
      (¬ first.IsVariable → a.operand.shape = b.operand.shape)

/-- The parts of a rule, and what becomes of them. -/
inductive Aligned : List Piece → List Token → List Token → Prop
  | nil : Aligned [] [] []
  | cons {p : Piece} {a b : Token} {pieces : List Piece} {as bs : List Token} :
    p.Twins a b → Aligned pieces as bs → Aligned (p :: pieces) (a :: as) (b :: bs)

namespace Piece.Twins

variable {p q : Piece} {a b c d t : Token}

theorem isTrivia (h : p.Twins a b) :
    a.isTrivia = p.first.isTrivia ∧ b.isTrivia = p.first.isTrivia := by
  have hvalue : ∀ {u : Token}, u.kind.group = .value → u.isTrivia = false :=
    fun hu => TokenKind.isTrivia_of_startsValue (TokenKind.startsValue_of_group hu)
  cases p with
  | other t =>
    obtain ⟨_, rfl, rfl⟩ := h
    exact ⟨rfl, rfl⟩
  | value first term =>
    obtain ⟨hs, ha, hb, _⟩ := h
    have hf : first.isTrivia = false := TokenKind.isTrivia_of_startsValue hs
    exact ⟨(hvalue ha).trans hf.symm, (hvalue hb).trans hf.symm⟩

theorem exchanges (h : p.Twins a b) : b.Exchanges a := by
  cases p with
  | other t =>
    obtain ⟨hs, rfl, rfl⟩ := h
    exact ⟨fun hg => absurd (TokenKind.startsValue_of_group hg) (by simp [hs]), fun _ => rfl⟩
  | value first term =>
    obtain ⟨_, ha, hb, hv, _⟩ := h
    exact ⟨fun _ => ⟨hb, fun _ => hv⟩, fun hn => absurd ha hn⟩

/-- A membership that has its array keeps it, unless that is a variable. -/
theorem neutral_iff (hp : p.Twins a b) (hq : q.Twins c d) (h : MemberArray a c) :
    p.Neutral q ↔ MemberArray b d := by
  have hvalue : ∀ {u : Token}, u.kind.startsValue = true → u.kind ≠ .comparison .member :=
    fun hu => TokenKind.ne_of_startsValue hu rfl
  cases p with
  | value first term =>
    obtain ⟨hs, _, hb, _⟩ := hp
    exact ⟨fun _ h => absurd h (hvalue (TokenKind.startsValue_of_group hb)),
      fun _ h => hvalue hs h.1⟩
  | other t =>
    obtain ⟨_, rfl, rfl⟩ := hp
    by_cases hk : b.kind = .comparison .member
    · cases q with
      | other u =>
        obtain ⟨hs, rfl, rfl⟩ := hq
        exact ⟨fun _ => h, fun _ hn => TokenKind.ne_of_startsValue rfl hs hn.2.1.symm⟩
      | value first term =>
        obtain ⟨_, _, _, _, hvariable, hshape⟩ := hq
        by_cases hv : first.IsVariable
        · refine ⟨fun hn => absurd ⟨hk, hv⟩ hn, fun hm => ?_⟩
          obtain ⟨items, hitems⟩ := hm hk
          cases (hvariable hv).symm.trans hitems
        · refine ⟨fun _ _ => ?_, fun _ hn => hv hn.2⟩
          obtain ⟨items, hitems⟩ := h hk
          exact Value.shape_array_iff.mp ((hshape hv).symm.trans (by rw [hitems]; rfl))
    · exact ⟨fun _ h => absurd h hk, fun _ h => hk h.1⟩

end Piece.Twins

namespace Aligned

variable {pieces : List Piece} {as bs : List Token}

theorem significant (h : Aligned pieces as bs) :
    Aligned (Piece.significant pieces) (significant as) (significant bs) := by
  induction h with
  | nil => exact .nil
  | @cons p a b pieces as bs hp _ ih =>
    obtain ⟨ha, hb⟩ := hp.isTrivia
    cases ht : p.first.isTrivia with
    | true => simpa [Piece.significant, Verdict.significant, ha, hb, ht] using ih
    | false =>
      have hcons := Aligned.cons hp ih
      simpa [Piece.significant, Verdict.significant, ha, hb, ht] using hcons

theorem exchanges (h : Aligned pieces as bs) : List.Forall₂ Token.Exchanges bs as := by
  induction h with
  | nil => exact .nil
  | cons hp _ ih => exact .cons hp.exchanges ih

theorem neutral_iff (h : Aligned pieces as bs) (ha : as.IsChain MemberArray) :
    pieces.IsChain Piece.Neutral ↔ bs.IsChain MemberArray := by
  induction h with
  | nil => simp
  | cons hp hrest ih =>
    cases hrest with
    | nil => simp
    | cons hq hrest =>
      rw [List.isChain_cons_cons] at ha ⊢
      rw [List.isChain_cons_cons, ih ha.2, hp.neutral_iff hq ha.1]

end Aligned

theorem Aligned.of_yields {scope blank : Scope} {depth : Nat} {ts as bs : List Token}
    {pieces : List Piece} (h : Splits depth ts pieces) (hb : scope.Blanks blank)
    (hk : ∀ t ∈ ts, blank.Knows t)
    (hfixed : ∀ first term, .value first term ∈ pieces → term.CallsFixed)
    (ha : List.Forall₂ (Piece.Yields scope) pieces as)
    (hbl : List.Forall₂ (Piece.Yields blank) pieces bs) : Aligned pieces as bs := by
  induction h generalizing as bs with
  | nil =>
    cases ha
    cases hbl
    exact .nil
  | other hs _ ih =>
    obtain ⟨a, as, rfl, has, rfl⟩ := List.forall₂_cons_left_iff.mp ha
    obtain ⟨b, bs, rfl, hbs, rfl⟩ := List.forall₂_cons_left_iff.mp hbl
    exact .cons ⟨hs, rfl, rfl⟩ (ih (fun t ht => hk t (by simp [ht]))
      (fun first term hm => hfixed first term (by simp [hm])) has hbs)
  | @value t ts rest term pieces hterm _ _ ih =>
    obtain ⟨a, as, ⟨v, hv, hcarry⟩, has, rfl⟩ := List.forall₂_cons_left_iff.mp ha
    obtain ⟨b, bs, ⟨w, hw, hcarry'⟩, hbs, rfl⟩ := List.forall₂_cons_left_iff.mp hbl
    have hcalls := hfixed t term (by simp)
    have hvariable := hterm.isVariable_iff hcalls
    obtain ⟨first, us, heq, hs⟩ := hterm.exists_first
    cases heq
    refine .cons ⟨hs, hcarry.group, hcarry'.group, by simp [hcarry'.value], ?_, ?_⟩
      (ih (fun t ht => hk t (by simp [ht]))
        (fun first term hm => hfixed first term (by simp [hm])) has hbs)
    · intro hvar
      rw [Token.operand, hcarry'.value, Option.getD_some]
      exact Term.value?_of_isVariable hb (hvariable.mp hvar) hw
    · intro hvar
      have hknown : ∀ u ∈ t :: ts, blank.Knows u :=
        fun u hu => hk u (List.mem_append_left rest hu)
      obtain ⟨w', hw', _, hshape⟩ := alike_of_spells hterm hb hknown hcalls v hv
      cases hw.symm.trans hw'
      rw [Token.operand, Token.operand, hcarry.value, hcarry'.value]
      exact hshape (fun h => hvar (hvariable.mpr h))

/-- A rule with a formula has one with undefined variables just if its tokens are neutral to each
other. -/
theorem exists_formula_blank_iff {scope blank : Scope} {tokens : List Token} {f : Formula}
    (hb : scope.Blanks blank)
    (hbound : ∀ t ∈ tokens, t.kind = .identifier → blank.bindings.contains t.raw = true)
    (hf : Formula.ofOperands scope.maxDepth (Operands.ofTokens scope tokens) = .ok f) :
    (∃ g, Formula.ofOperands blank.maxDepth (Operands.ofTokens blank tokens) = .ok g) ↔
      (significant tokens).IsChain Neutral := by
  have hknown := Scope.knows_of_ofOperands hf
  have hknown' : ∀ t ∈ tokens, blank.Knows t := by
    intro t ht
    obtain ⟨_, hfunction, hmethod⟩ := hknown t ht
    rw [hb.registry, ← hb.blank_registry] at hfunction hmethod
    exact ⟨fun hk _ => hbound t ht hk, hfunction, hmethod⟩
  obtain ⟨hfault, hrule⟩ := Formula.ofOperands_eq_ok_iff_ofTokens.mp hf
  obtain ⟨pieces, hsplit⟩ := Operands.wellFormed_of_fault hfault
  have hsplit' : Splits blank.maxDepth tokens pieces := hb.maxDepth ▸ hsplit
  have hyields := Operands.yields_of_splits hsplit hknown hfault
  have hisRule : IsRule scope.maxDepth (significant (Operands.ofTokens scope tokens).tokens) :=
    Formula.isRule_significant hrule
  -- The same in both directions, once it is clear that no call depends on a variable.
  have haligned : ∀ {bs : List Token}, List.Forall₂ (Piece.Yields blank) pieces bs →
      (∀ first term, .value first term ∈ pieces → term.CallsFixed) →
      Aligned (Piece.significant pieces) (significant (Operands.ofTokens scope tokens).tokens)
        (significant bs) :=
    fun hbs hfixed => (Aligned.of_yields hsplit hb hknown' hfixed hyields hbs).significant
  rw [hsplit.neutral_iff]
  constructor
  · rintro ⟨g, hg⟩
    obtain ⟨hfault', hrule'⟩ := Formula.ofOperands_eq_ok_iff_ofTokens.mp hg
    have hall := Operands.yields_of_splits hsplit' hknown' hfault'
    have hfixed : ∀ first term, .value first term ∈ pieces → term.CallsFixed := by
      intro first term hm
      obtain ⟨v, hv⟩ := exists_value_of_yields hall hm
      exact Term.callsFixed_of_value? hb hv
    have hmember := IsRule.memberArray (Formula.isRule_significant hrule')
    exact ⟨hfixed, ((haligned hall hfixed).neutral_iff hisRule.memberArray).mpr hmember⟩
  · rintro ⟨hfixed, hneutral⟩
    have hvalues : ∀ first term, .value first term ∈ pieces →
        ∃ w, term.value? blank = some w := by
      intro first term hm
      obtain ⟨v, hv⟩ := exists_value_of_yields hyields hm
      obtain ⟨us, hus, hsub⟩ := hsplit.spells_of_mem hm
      obtain ⟨w, hw, _⟩ :=
        alike_of_spells hus hb (fun t ht => hknown' t (hsub t ht)) (hfixed first term hm) v hv
      exact ⟨w, hw⟩
    have hfault' := Operands.fault_of_values hsplit' hknown' hvalues
    have hal := haligned (Operands.yields_of_splits hsplit' hknown' hfault') hfixed
    have hmember := (hal.neutral_iff hisRule.memberArray).mp hneutral
    obtain ⟨g, hg, _⟩ := Formula.ofTokens_of_isRule (hisRule.exchange hal.exchanges hmember)
    refine ⟨g, Formula.ofOperands_eq_ok_iff_ofTokens.mpr ⟨hfault', ?_⟩⟩
    rw [Formula.ofTokens_significant, hb.maxDepth]
    exact hg

theorem Value.regex?_ofJson {j : Json} {v : Value} (h : ofJson j = .ok v) : v.regex? = none := by
  cases j with
  | array items =>
    unfold ofJson at h
    obtain ⟨vs, _, rfl⟩ := map_eq_ok_iff.mp h
    rfl
  | object members => simp [ofJson] at h
  | _ =>
    simp only [ofJson, Except.ok.injEq] at h
    subst v
    rfl

namespace Check

variable {check : Check} {result : CheckResult} {engine : Engine} {text : String} {b b' : Bindings}

theorem formula_eq_ok_iff {f : Formula} :
    formula engine text b = .ok f ↔ engine.formula text b = .ok f := by
  unfold formula
  cases engine.formula text b <;> simp [Except.mapError]

/-- A check has a result for variables only if the rule has a formula. -/
theorem exists_formula_of_run (hs : check.syntaxOnly = false) (h : check.run = .ok result) :
    ∃ json b f, check.vars = some json ∧ Bindings.ofJson json = .ok b ∧
      (Engine.standard check.limits).formula check.text b = .ok f := by
  unfold run bindings at h
  cases hv : check.vars with
  | none => simp [hv, hs, bind, Except.bind, throw, throwThe, MonadExceptOf.throw] at h
  | some json =>
    cases hb : Bindings.ofJson json with
    | error e => simp [hv, hb, bind, Except.bind] at h
    | ok b =>
      cases hf : formula (Engine.standard check.limits) check.text b with
      | error e => simp [hv, hb, hs, hf, bind, Except.bind] at h
      | ok f => exact ⟨json, b, f, rfl, hb, formula_eq_ok_iff.mp hf⟩

theorem run_syntaxOnly_iff :
    run { check with vars := none, syntaxOnly := true } = .ok .syntaxValid ↔
      ∃ f, (Engine.standard check.limits).formula check.text
        (bindMissing .empty ((Engine.standard check.limits).tokens check.text)) = .ok f := by
  simp only [← formula_eq_ok_iff]
  cases hf : formula (Engine.standard check.limits) check.text
      (bindMissing .empty ((Engine.standard check.limits).tokens check.text)) with
  | error e => simp [run, bindings, hf, bind, Except.bind]
  | ok f => simp [run, bindings, hf, bind, Except.bind, pure, Except.pure]

/-- In the check of the tokens alone, the variables of a rule are undefined. -/
theorem blanks_bindMissing (limits : Limits) {json : String} (hb : Bindings.ofJson json = .ok b)
    (ts : List Token) : ((Engine.standard limits).scope b).Blanks
      ((Engine.standard limits).scope (bindMissing .empty ts)) where
  registry := rfl
  blank_registry := rfl
  maxDepth := rfl
  regex := Bindings.all_ofJson (fun _ _ h => Value.regex?_ofJson h) hb
  undefined := all_bindMissing (P := (· = .undefined)) (Bindings.all_empty _) rfl ts

end Check

/-- A rule that has a verdict passes the check of its tokens alone, without variables, if and only
if no method call directly follows a variable, and no variable directly follows a membership. -/
theorem syntaxOnly_valid_iff_neutral (check : Check) (result : CheckResult)
    (hs : check.syntaxOnly = false) (h : check.run = .ok result) :
    Check.run { check with vars := none, syntaxOnly := true } = .ok .syntaxValid ↔
      (significant ((Engine.standard check.limits).tokens check.text)).IsChain Neutral := by
  obtain ⟨json, b, f, _, hb, hf⟩ := Check.exists_formula_of_run hs h
  obtain ⟨hlength, hoperands⟩ := Engine.formula_eq_ok_iff.mp hf
  have hblanks := Check.blanks_bindMissing check.limits hb
    ((Engine.standard check.limits).tokens check.text)
  have hiff := exists_formula_blank_iff hblanks
    (fun t ht hk => Check.contains_bindMissing (.inr ⟨t, ht, hk, rfl⟩)) hoperands
  rw [Check.run_syntaxOnly_iff, ← hiff]
  constructor
  · rintro ⟨g, hg⟩
    exact ⟨g, (Engine.formula_eq_ok_iff.mp hg).2⟩
  · rintro ⟨g, hg⟩
    exact ⟨g, Engine.formula_eq_ok_iff.mpr ⟨hlength, hg⟩⟩

theorem syntaxOnly_valid_iff_neutral_join :
    let check : Check :=
      ⟨"[x].join() in ['a', y]", some "\x7b\"X\": \"a\", \"y\": 1\x7d", false, false, .standard⟩
    check.run = .ok (.verdict true) ∧
      Check.run { check with vars := none, syntaxOnly := true } = .ok .syntaxValid := by
  intro check
  have h : check.run = .ok (.verdict true) := by decide +kernel
  exact ⟨h, (syntaxOnly_valid_iff_neutral check _ rfl h).mpr (by decide +kernel)⟩

/-- A rule with a verdict of which the order of the tokens alone is found wrong. -/
theorem syntaxOnly_rejects_membership :
    let check : Check := ⟨"1 in x", some "\x7b\"x\": [1]\x7d", false, false, .standard⟩
    check.run = .ok (.verdict true) ∧
      Check.run { check with vars := none, syntaxOnly := true } =
        .error (.rule (.badType (.expectedArray "undefined") none)) := by
  decide +kernel

end Verdict
