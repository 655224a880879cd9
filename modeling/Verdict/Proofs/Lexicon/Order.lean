import Verdict.Lexicon.Standard
import Verdict.Proofs.Sort

namespace Verdict

namespace TokenRule

/-- Whether a rule may stand before another one. -/
def mayPrecede (r s : TokenRule) : Bool := s.priority ≤ r.priority

theorem mayPrecede_trans (r s t : TokenRule) (hrs : r.mayPrecede s = true)
    (hst : s.mayPrecede t = true) : r.mayPrecede t = true := by
  simp only [mayPrecede, decide_eq_true_eq] at hrs hst ⊢
  omega

theorem mayPrecede_total (r s : TokenRule) : (r.mayPrecede s || s.mayPrecede r) = true := by
  simp only [mayPrecede, Bool.or_eq_true, decide_eq_true_eq]
  omega

theorem ofCall?_eq_some_iff {call : TokenKind × String × Int} {rule : TokenRule} :
    ofCall? call = some rule ↔ rule.kind = call.1 ∧ rule.pattern = call.2.1 ∧
      rule.priority = call.2.2 ∧
      Regex.read {} ("\\A(?:" ++ call.2.1 ++ ")").toList = .ok rule.regex := by
  obtain ⟨kind, pattern, priority⟩ := call
  obtain ⟨kind', pattern', priority', regex⟩ := rule
  unfold ofCall? ofPattern?
  cases hread : Regex.read {} ("\\A(?:" ++ pattern ++ ")").toList with
  | error e => simp [Except.map, Except.toOption]
  | ok re => simp [Except.map, Except.toOption, eq_comm]

/-- A rule takes `n` characters, and not none, from the beginning of a text. -/
def Takes (rule : TokenRule) (s : List Char) (n : Nat) : Prop :=
  rule.regex.matchEnd? s s.length = some n ∧ 0 < n

theorem matchLength?_eq_some_iff {rule : TokenRule} {s : List Char} {n : Nat} :
    rule.matchLength? s s.length = some n ↔ rule.Takes s n := by
  simp [matchLength?, Takes, Option.filter_eq_some_iff]

theorem matchLength?_eq_none_iff {rule : TokenRule} {s : List Char} :
    rule.matchLength? s s.length = none ↔ ∀ n, ¬ rule.Takes s n := by
  simp only [Option.eq_none_iff_forall_ne_some, ne_eq, matchLength?_eq_some_iff]

end TokenRule

namespace Lexicon

variable {lex : Lexicon} {kind : TokenKind} {s : List Char} {n : Nat}

theorem rules_insert (lex : Lexicon) (rule : TokenRule) :
    (lex.insert rule).rules = insertAfter TokenRule.mayPrecede rule lex.rules :=
  rfl

theorem rules_tryRegister (lex : Lexicon) (call : TokenKind × String × Int) :
    (lex.tryRegister call).rules =
      (TokenRule.ofCall? call).elim lex.rules fun rule => (lex.insert rule).rules := by
  unfold tryRegister register TokenRule.ofCall?
  cases TokenRule.ofPattern? call.1 call.2.1 call.2.2 with
  | error e => rfl
  | ok rule => rfl

theorem registerAll_append (lex : Lexicon) (calls more : List (TokenKind × String × Int)) :
    lex.registerAll (calls ++ more) = (lex.registerAll calls).registerAll more :=
  List.foldl_append

theorem rules_registerAll (h : lex.rules.Pairwise (TokenRule.mayPrecede · ·))
    (calls : List (TokenKind × String × Int)) :
    (lex.registerAll calls).rules =
      (lex.rules ++ calls.filterMap TokenRule.ofCall?).mergeSort TokenRule.mayPrecede := by
  induction calls using List.reverseRecOn with
  | nil => simpa [registerAll] using (List.mergeSort_of_pairwise h).symm
  | append_singleton calls call ih =>
    rw [registerAll_append, List.filterMap_append]
    change ((lex.registerAll calls).tryRegister call).rules = _
    rw [rules_tryRegister]
    cases hrule : TokenRule.ofCall? call with
    | none => simpa [hrule] using ih
    | some rule =>
      simp only [Option.elim_some, List.filterMap_cons, hrule, List.filterMap_nil]
      rw [← List.append_assoc, mergeSort_concat TokenRule.mayPrecede_trans
        TokenRule.mayPrecede_total, ← ih, rules_insert]

theorem pairwise_rules_registerAll (h : lex.rules.Pairwise (TokenRule.mayPrecede · ·))
    (calls : List (TokenKind × String × Int)) :
    (lex.registerAll calls).rules.Pairwise (TokenRule.mayPrecede · ·) := by
  rw [rules_registerAll h]
  exact List.pairwise_mergeSort TokenRule.mayPrecede_trans TokenRule.mayPrecede_total _

theorem mem_rules_registerAll (h : lex.rules.Pairwise (TokenRule.mayPrecede · ·))
    {calls : List (TokenKind × String × Int)} {rule : TokenRule} :
    rule ∈ (lex.registerAll calls).rules ↔
      rule ∈ lex.rules ∨ ∃ call ∈ calls, TokenRule.ofCall? call = some rule := by
  rw [rules_registerAll h, List.mem_mergeSort, List.mem_append, List.mem_filterMap]

/-- Where every call for a kind gives the same pattern, a rule of that kind is what it is read as. -/
theorem regex_of_calls {calls : List (TokenKind × String × Int)} {pattern : String} {re : Regex}
    (hcalls : ∀ call ∈ calls, call.1 = kind → call.2.1 = pattern)
    (hread : Regex.read {} ("\\A(?:" ++ pattern ++ ")").toList = .ok re) {rule : TokenRule}
    (hrule : rule ∈ (empty.registerAll calls).rules) (hkind : rule.kind = kind) :
    rule.regex = re := by
  rcases (mem_rules_registerAll .nil).mp hrule with hempty | ⟨call, hcall, hof⟩
  · cases hempty
  · obtain ⟨hcallKind, _, _, hcallRead⟩ := TokenRule.ofCall?_eq_some_iff.mp hof
    rw [hcalls call hcall (hcallKind.symm.trans hkind), hread] at hcallRead
    exact (Except.ok.inj hcallRead).symm

theorem pairwise_rules_standard : standard.rules.Pairwise (TokenRule.mayPrecede · ·) := by
  rw [standard]
  exact pairwise_rules_registerAll .nil standardRules

/-- A priority parts a lexicon in order, so that the place of a new rule can be found by halving. -/
theorem exists_place (h : lex.rules.Pairwise (TokenRule.mayPrecede · ·)) (rule : TokenRule) :
    ∃ before after, lex.rules = before ++ after ∧ (∀ r ∈ before, rule.priority ≤ r.priority) ∧
      (∀ r ∈ after, r.priority < rule.priority) ∧
      (lex.insert rule).rules = before ++ rule :: after := by
  refine ⟨_, _, List.takeWhile_append_dropWhile.symm, ?_, ?_, rules_insert lex rule⟩
  · intro r hr
    simpa [TokenRule.mayPrecede] using List.mem_takeWhile_imp hr
  · intro r hr
    simpa [TokenRule.mayPrecede] using of_mem_dropWhile TokenRule.mayPrecede_trans h hr

theorem matchPrefix?_eq_some_iff : lex.matchPrefix? s s.length = some (kind, n) ↔
    ∃ before rule after, lex.rules = before ++ rule :: after ∧ rule.kind = kind ∧
      rule.Takes s n ∧ ∀ r ∈ before, ∀ m, ¬ r.Takes s m := by
  unfold matchPrefix?
  rw [List.findSome?_eq_some_iff]
  constructor
  · rintro ⟨before, rule, after, hrules, htakes, hbefore⟩
    obtain ⟨m, hm, heq⟩ := Option.map_eq_some_iff.mp htakes
    cases heq
    refine ⟨before, rule, after, hrules, rfl, TokenRule.matchLength?_eq_some_iff.mp hm, ?_⟩
    intro r hr
    exact TokenRule.matchLength?_eq_none_iff.mp (Option.map_eq_none_iff.mp (hbefore r hr))
  · rintro ⟨before, rule, after, hrules, rfl, htakes, hbefore⟩
    refine ⟨before, rule, after, hrules, ?_, ?_⟩
    · rw [TokenRule.matchLength?_eq_some_iff.mpr htakes]
      rfl
    · intro r hr
      rw [TokenRule.matchLength?_eq_none_iff.mpr (hbefore r hr)]
      rfl

theorem matchPrefix?_eq_none_iff :
    lex.matchPrefix? s s.length = none ↔ ∀ r ∈ lex.rules, ∀ m, ¬ r.Takes s m := by
  simp [matchPrefix?, TokenRule.matchLength?_eq_none_iff]

theorem tryRegister_of_error {call : TokenKind × String × Int} {e : PatternError}
    (h : lex.register call.1 call.2.1 call.2.2 = .error e) : lex.tryRegister call = lex := by
  unfold tryRegister
  rw [h]

end Lexicon

/-- The rules of a lexicon are the stable sort, by descending priority, of those it began with and
those whose registration succeeded, in the order of the calls; every new rule has its place in them.
A call that fails leaves them as they are. The first of them that takes anything from the beginning
of a text gives the kind and the length of the token. -/
theorem registerAll_orders_rules (base : Lexicon) (hbase : base = .empty ∨ base = .standard)
    (calls : List (TokenKind × String × Int)) :
    let lex := base.registerAll calls
    lex.rules =
        (base.rules ++ calls.filterMap TokenRule.ofCall?).mergeSort TokenRule.mayPrecede ∧
      (∀ rule : TokenRule, ∃ before after, lex.rules = before ++ after ∧
        (∀ r ∈ before, rule.priority ≤ r.priority) ∧ (∀ r ∈ after, r.priority < rule.priority) ∧
        (lex.insert rule).rules = before ++ rule :: after) ∧
      (∀ call e, lex.register call.1 call.2.1 call.2.2 = .error e →
        base.registerAll (calls ++ [call]) = lex) ∧
      ∀ s : List Char,
        (∀ kind n, lex.matchPrefix? s s.length = some (kind, n) ↔
          ∃ before rule after, lex.rules = before ++ rule :: after ∧ rule.kind = kind ∧
            rule.Takes s n ∧ ∀ r ∈ before, ∀ m, ¬ r.Takes s m) ∧
        (lex.matchPrefix? s s.length = none ↔ ∀ r ∈ lex.rules, ∀ m, ¬ r.Takes s m) := by
  intro lex
  have hordered : base.rules.Pairwise (TokenRule.mayPrecede · ·) := by
    rcases hbase with rfl | rfl
    · exact .nil
    · exact Lexicon.pairwise_rules_standard
  refine ⟨Lexicon.rules_registerAll hordered calls, ?_, ?_, ?_⟩
  · exact Lexicon.exists_place (Lexicon.pairwise_rules_registerAll hordered calls)
  · intro call e he
    rw [Lexicon.registerAll_append]
    exact Lexicon.tryRegister_of_error he
  · intro s
    exact ⟨fun _ _ => Lexicon.matchPrefix?_eq_some_iff, Lexicon.matchPrefix?_eq_none_iff⟩

theorem registerAll_orders_rules_ties :
    let calls : List (TokenKind × String × Int) :=
      [(.identifier, "[a-z]+", 10), (.boolean, "yes", 10), (.space, "(", 99), (.null, "n*", 20)]
    let lex := Lexicon.empty.registerAll calls
    (Lexicon.empty = .empty ∨ Lexicon.empty = .standard) ∧
      lex.rules.map TokenRule.kind = [.null, .identifier, .boolean] ∧
      lex.rules = (calls.filterMap TokenRule.ofCall?).mergeSort TokenRule.mayPrecede ∧
      lex.register .space "(" 99 = .error .unclosedGroup ∧
      Lexicon.empty.registerAll (calls ++ [(.space, "(", 99)]) = lex ∧
      lex.matchPrefix? "yes".toList 3 = some (.identifier, 3) ∧
      ∃ before rule after, lex.rules = before ++ rule :: after ∧ rule.kind = .identifier ∧
        rule.Takes "yes".toList 3 ∧ ∀ r ∈ before, ∀ m, ¬ r.Takes "yes".toList m := by
  intro calls lex
  have hempty : Lexicon.empty = .empty ∨ Lexicon.empty = .standard := .inl rfl
  obtain ⟨hsort, _, hfails, hfirst⟩ := registerAll_orders_rules .empty hempty calls
  have hkinds : lex.rules.map TokenRule.kind = [.null, .identifier, .boolean] := by
    subst lex calls
    rfl
  have herror : lex.register .space "(" 99 = .error .unclosedGroup := by
    subst lex calls
    rfl
  have hmatch : lex.matchPrefix? "yes".toList 3 = some (.identifier, 3) := by
    subst lex calls
    rfl
  exact ⟨hempty, hkinds, hsort, herror, hfails (.space, "(", 99) _ herror, hmatch,
    ((hfirst "yes".toList).1 _ _).mp hmatch⟩

end Verdict
