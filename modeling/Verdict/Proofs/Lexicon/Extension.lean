import Verdict.Proofs.Fold
import Verdict.Proofs.Lexicon.Cutting

namespace Verdict

/-- Whether a rule of the lexicon gives the kind of a token. -/
def Token.isKnown (t : Token) : Bool := t.kind != .unknown

namespace Lexicon

variable {lex lex' : Lexicon} {here : Location} {s : List Char} {length : Nat}
  {rule : TokenRule} {tokens tokens' : List Token}

/-- Every token that one lexicon knows, the other takes as well. -/
def Extends (lex lex' : Lexicon) : Prop :=
  ∀ s kind n, lex.firstToken s s.length = (kind, n) → kind ≠ .unknown →
    lex'.firstToken s s.length = (kind, n)

theorem exists_rule_of_register {kind : TokenKind} {pattern : String} {priority : Int}
    (h : lex.register kind pattern priority = .ok lex') :
    ∃ rule : TokenRule, rule.priority = priority ∧ lex.insert rule = lex' := by
  unfold register at h
  obtain ⟨rule, hrule, hinsert⟩ := map_eq_ok_iff.mp h
  have hcall : TokenRule.ofCall? (kind, pattern, priority) = some rule := by
    simp [TokenRule.ofCall?, hrule, Except.toOption]
  exact ⟨rule, (TokenRule.ofCall?_eq_some_iff.mp hcall).2.2.1, hinsert⟩

theorem rules_insert_of_low (h : ∀ r ∈ lex.rules, rule.priority ≤ r.priority) :
    (lex.insert rule).rules = lex.rules ++ [rule] := by
  have hall : ∀ r ∈ lex.rules, decide (rule.priority ≤ r.priority) = true :=
    fun r hr => decide_eq_true (h r hr)
  rw [insert, List.takeWhile_eq_self_iff.mpr hall, List.dropWhile_eq_nil_iff.mpr hall]

/-- The new rule is tried last. -/
theorem matchPrefix?_insert_of_low (h : ∀ r ∈ lex.rules, rule.priority ≤ r.priority) :
    (lex.insert rule).matchPrefix? s length =
      (lex.matchPrefix? s length).or ((rule.matchLength? s length).map (rule.kind, ·)) := by
  rw [matchPrefix?, rules_insert_of_low h, List.findSome?_append, List.findSome?_singleton]
  rfl

theorem extends_insert_of_low (h : ∀ r ∈ lex.rules, rule.priority ≤ r.priority) :
    lex.Extends (lex.insert rule) := by
  intro s kind n hfirst hknown
  unfold firstToken at hfirst ⊢
  rw [matchPrefix?_insert_of_low h]
  cases hmatch : lex.matchPrefix? s s.length with
  | none =>
    rw [hmatch] at hfirst
    cases hfirst
    exact absurd rfl hknown
  | some found =>
    rw [hmatch] at hfirst
    exact hfirst

/-- A text is cut by both lexicons in the same way, as long as the tokens are known. -/
theorem Cuts.extend (hext : lex.Extends lex') (h : lex.Cuts here s tokens)
    (h' : lex'.Cuts here s tokens') :
    ∃ more, tokens' = tokens.takeWhile Token.isKnown ++ more ∧
      ((∀ t ∈ tokens, t.isKnown = true) → more = []) := by
  induction h generalizing tokens' with
  | done =>
    cases h' with
    | done => exact ⟨[], rfl, fun _ => rfl⟩
    | token hs _ _ => exact absurd rfl hs
  | @token here s kind n tokens hs hfirst _ ih =>
    cases h' with
    | done => exact absurd rfl hs
    | @token _ _ kind' n' tokens' _ hfirst' hcuts' =>
      by_cases hknown : kind = .unknown
      · have hfirst : (makeToken kind (s.take n) here).isKnown = false := by
          simp [Token.isKnown, makeToken, hknown]
        refine ⟨_, by rw [List.takeWhile_cons_of_neg (by simp [hfirst]), List.nil_append], ?_⟩
        exact fun hall => absurd (hall _ List.mem_cons_self) (by simp [hfirst])
      · obtain ⟨rfl, rfl⟩ := Prod.mk.inj (hfirst'.symm.trans (hext s kind n hfirst hknown))
        have hfirst : (makeToken kind' (s.take n') here).isKnown = true := by
          simp [Token.isKnown, makeToken, hknown]
        obtain ⟨more, rfl, hmore⟩ := ih hcuts'
        refine ⟨more, by rw [List.takeWhile_cons_of_pos hfirst, List.cons_append], ?_⟩
        exact fun hall => hmore fun t ht => hall t (List.mem_cons_of_mem _ ht)

theorem scan_extend (hext : lex.Extends lex') (text : String) :
    (lex.scan text).takeWhile Token.isKnown <+: lex'.scan text ∧
      ((∀ t ∈ lex.scan text, t.isKnown = true) → lex'.scan text = lex.scan text) := by
  obtain ⟨more, htokens, hmore⟩ := (lex.scan_cuts text).extend hext (lex'.scan_cuts text)
  refine ⟨⟨more, htokens.symm⟩, fun hall => ?_⟩
  rw [htokens, hmore hall, List.append_nil, List.takeWhile_eq_self_iff.mpr hall]

end Lexicon

/-- A rule that is registered below all others, or at the lowest of their priorities, changes no
token of a text before the first unknown one, and so none at all of a text without unknown tokens:
neither kinds nor texts, values or places. -/
theorem low_rule_keeps_tokens (lex lex' : Lexicon) (kind : TokenKind) (pattern : String)
    (priority : Int) (hlow : ∀ r ∈ lex.rules, priority ≤ r.priority)
    (hregister : lex.register kind pattern priority = .ok lex') (text : String) :
    (lex.scan text).takeWhile Token.isKnown <+: lex'.scan text ∧
      ((∀ t ∈ lex.scan text, t.kind ≠ .unknown) → lex'.scan text = lex.scan text) := by
  obtain ⟨rule, hpriority, rfl⟩ := Lexicon.exists_rule_of_register hregister
  obtain ⟨hstart, hall⟩ := Lexicon.scan_extend
    (Lexicon.extends_insert_of_low fun r hr => hpriority ▸ hlow r hr) text
  refine ⟨hstart, fun hknown => hall fun t ht => ?_⟩
  simpa [Token.isKnown] using hknown t ht

theorem low_rule_keeps_tokens_longer :
    let lex := Lexicon.empty.registerAll [(.identifier, "[a-z]+", 10), (.space, " ", 5)]
    let lex' := lex.tryRegister (.comment, "[a-z ]+", 5)
    (∀ r ∈ lex.rules, 5 ≤ r.priority) ∧ lex.register .comment "[a-z ]+" 5 = .ok lex' ∧
      (∀ t ∈ lex.scan "a is b", t.kind ≠ .unknown) ∧
      (lex'.scan "a is b").map Token.raw = ["a", " ", "is", " ", "b"] ∧
      (lex.scan "a+b").map Token.raw = ["a", "+", "b"] ∧
      (lex.scan "a+b").takeWhile Token.isKnown <+: lex'.scan "a+b" := by
  intro lex lex'
  have hlow : ∀ r ∈ lex.rules, 5 ≤ r.priority := by
    subst lex
    decide
  have hregister : lex.register .comment "[a-z ]+" 5 = .ok lex' := by
    subst lex lex'
    rfl
  have hknown : ∀ t ∈ lex.scan "a is b", t.kind ≠ .unknown := by
    subst lex
    decide
  have hraw : (lex.scan "a is b").map Token.raw = ["a", " ", "is", " ", "b"] ∧
      (lex.scan "a+b").map Token.raw = ["a", "+", "b"] := by
    subst lex
    decide
  have hsame := (low_rule_keeps_tokens lex lex' _ _ 5 hlow hregister "a is b").2 hknown
  have hstart := (low_rule_keeps_tokens lex lex' _ _ 5 hlow hregister "a+b").1
  exact ⟨hlow, hregister, hknown, hsame ▸ hraw.1, hraw.2, hstart⟩

end Verdict
