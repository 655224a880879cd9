import Verdict.Proofs.Lexicon.Order
import Verdict.Proofs.Pattern.Enclosed
import Verdict.Proofs.Pattern.Matching

namespace Verdict

/-- A pattern whose matches are all anchored matches only where a text begins. -/
theorem Pattern.before_eq_none_of_anchored {p : Pattern} {before : Option Char}
    {m after : List Char} (hp : p.anchored = true) (h : p.Matches before m after) :
    before = none := by
  induction h with
  | empty => cases hp
  | one => cases hp
  | @look k before after hk =>
    cases k with
    | textStart => simpa [Look.holds] using hk
    | _ => cases hp
  | seq _ _ ih _ => exact ih hp
  | left _ ih => exact ih (Bool.and_eq_true_iff.mp hp).1
  | right _ ih => exact ih (Bool.and_eq_true_iff.mp hp).2
  | stop => cases hp
  | pass _ _ _ ih _ => exact ih (Bool.and_eq_true_iff.mp hp).2
  | group _ ih => exact ih hp

namespace Lexicon

variable {base : Lexicon} {calls : List (TokenKind × String × Int)} {rule : TokenRule}

/-- What a rule is matched with is read from its pattern in the anchored group. -/
theorem read_of_mem_registerAll (hbase : base = .empty ∨ base = .standard)
    (h : rule ∈ (base.registerAll calls).rules) :
    Regex.read {} ("\\A(?:" ++ rule.pattern ++ ")").toList = .ok rule.regex := by
  have hread : ∀ calls, rule ∈ (empty.registerAll calls).rules →
      Regex.read {} ("\\A(?:" ++ rule.pattern ++ ")").toList = .ok rule.regex := by
    intro calls h
    rcases (mem_rules_registerAll .nil).mp h with h | ⟨call, _, hcall⟩
    · cases h
    · obtain ⟨_, hpattern, _, hread⟩ := TokenRule.ofCall?_eq_some_iff.mp hcall
      rwa [hpattern]
  rcases hbase with rfl | rfl
  · exact hread calls h
  · rw [standard, ← registerAll_append] at h
    exact hread _ h

end Lexicon

/-- The rule that wins matches a piece of the text that ends where the token ends. The piece is the
token, from the very beginning of the text, if all matches of the rule are anchored. They are if its
pattern is a regular expression by itself, and this expression then matches the token. -/
theorem rule_win_anchored (base : Lexicon) (hbase : base = .empty ∨ base = .standard)
    (calls : List (TokenKind × String × Int)) (s : List Char) (kind : TokenKind) (n : Nat)
    (h : (base.registerAll calls).matchPrefix? s s.length = some (kind, n)) :
    0 < n ∧ ∃ before rule after,
      (base.registerAll calls).rules = before ++ rule :: after ∧ rule.kind = kind ∧
      (∀ r ∈ before, ∀ m, ¬ r.Takes s m) ∧
      ∃ gap m rest, s = gap ++ m ++ rest ∧ n = (gap ++ m).length ∧
        rule.regex.pattern.Matches (lastRead none gap) m rest ∧
        (rule.regex.pattern.anchored = true → gap = []) ∧
        ∀ re, Regex.read {} rule.pattern.toList = .ok re →
          rule.regex.pattern = .seq (.look .textStart) re.pattern ∧ gap = [] ∧
            re.pattern.Matches none m rest := by
  obtain ⟨before, rule, after, hrules, hkind, ⟨hend, hpos⟩, hbefore⟩ :=
    Lexicon.matchPrefix?_eq_some_iff.mp h
  obtain ⟨gap, m, rest, hs, hn, hmatch⟩ := Regex.matchEnd?_eq_some hend
  have hgap : rule.regex.pattern.anchored = true → gap = [] := fun hanchored =>
    (lastRead_eq_none_iff.mp (Pattern.before_eq_none_of_anchored hanchored hmatch)).1
  refine ⟨hpos, before, rule, after, hrules, hkind, hbefore, gap, m, rest, hs, hn, hmatch, hgap, ?_⟩
  intro re hre
  have hread : Regex.read {} ("\\A(?:".toList ++ rule.pattern.toList ++ [')']) = .ok rule.regex := by
    have hmem : rule ∈ (base.registerAll calls).rules := by simp [hrules]
    simpa using Lexicon.read_of_mem_registerAll hbase hmem
  have hpattern := Regex.pattern_of_enclosed hre hread
  obtain rfl : gap = [] := hgap (by rw [hpattern]; rfl)
  rw [hpattern] at hmatch
  obtain ⟨x, y, rfl, hlook, hy⟩ := Pattern.matches_seq_iff.mp hmatch
  obtain ⟨rfl, _⟩ := Pattern.matches_look_iff.mp hlook
  exact ⟨hpattern, rfl, hy⟩

theorem rule_win_anchored_word :
    let lex := Lexicon.empty.registerAll [(.identifier, "[a-z]+", 10)]
    (Lexicon.empty = .empty ∨ Lexicon.empty = .standard) ∧
      lex.matchPrefix? "ab1".toList 3 = some (.identifier, 2) ∧
      ∃ re, Regex.read {} "[a-z]+".toList = .ok re ∧
        re.pattern.Matches none "ab".toList "1".toList := by
  intro lex
  have hempty : Lexicon.empty = .empty ∨ Lexicon.empty = .standard := .inl rfl
  have htoken : lex.matchPrefix? "ab1".toList 3 = some (.identifier, 2) := rfl
  obtain ⟨re, hre⟩ : ∃ re, Regex.read {} "[a-z]+".toList = .ok re := ⟨_, rfl⟩
  obtain ⟨_, before, rule, after, hrules, _, _, gap, m, rest, hs, hn, _, _, halone⟩ :=
    rule_win_anchored .empty hempty _ _ _ _ htoken
  have hpattern : rule.pattern = "[a-z]+" := by
    have hpatterns : lex.rules.map TokenRule.pattern = ["[a-z]+"] := rfl
    have hmem : rule.pattern ∈ lex.rules.map TokenRule.pattern := by
      rw [hrules]
      simp
    simpa [hpatterns] using hmem
  obtain ⟨_, rfl, hmatch⟩ := halone re (by rw [hpattern, hre])
  obtain ⟨hm, hrest⟩ : "ab".toList = m ∧ "1".toList = rest := List.append_inj hs hn
  refine ⟨hempty, htoken, re, hre, ?_⟩
  rwa [hm, hrest]

/-- A pattern that closes its group and goes on with an alternative has matches that are not
anchored, so that a token takes what stands in front of them. -/
theorem rule_win_skips_text :
    let lex := Lexicon.empty.registerAll [(.comparison .equal, "a)|(?:b", 10)]
    lex.matchPrefix? "xb".toList 2 = some (.comparison .equal, 2) ∧
      ∀ rule ∈ lex.rules, ¬ rule.regex.pattern.Matches none "xb".toList [] := by
  intro lex
  refine ⟨rfl, ?_⟩
  intro rule hrule h
  have hpattern : rule.regex.pattern =
      .alt (.seq (.look .textStart) (.one (.char 'a'))) (.one (.char 'b')) := by
    have hpatterns : lex.rules.map (·.regex.pattern) =
        [.alt (.seq (.look .textStart) (.one (.char 'a'))) (.one (.char 'b'))] := rfl
    have hmem := List.mem_map_of_mem (f := (·.regex.pattern)) hrule
    simpa [hpatterns] using hmem
  rw [hpattern] at h
  rcases Pattern.matches_alt_iff.mp h with hleft | hright
  · obtain ⟨x, y, hxy, hlook, hone⟩ := Pattern.matches_seq_iff.mp hleft
    obtain ⟨rfl, _⟩ := Pattern.matches_look_iff.mp hlook
    obtain ⟨c, rfl, _⟩ := Pattern.matches_one_iff.mp hone
    simp at hxy
  · obtain ⟨c, hc, _⟩ := Pattern.matches_one_iff.mp hright
    simp at hc

end Verdict
