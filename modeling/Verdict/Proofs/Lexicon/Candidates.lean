import Verdict.Proofs.Lexicon.Anchor
import Verdict.Proofs.Lexicon.Cutting
import Verdict.Proofs.Pattern.Preferred

namespace Verdict

namespace Pattern

/-- A pattern behind the anchor that holds it to the beginning of a text. -/
def atStart (p : Pattern) : Pattern := .seq (.look .textStart) p

variable {p : Pattern} {m after : List Char}

theorem matches_atStart_iff : p.atStart.Matches none m after ↔ p.Matches none m after := by
  constructor
  · intro h
    obtain ⟨x, y, rfl, hlook, hp⟩ := matches_seq_iff.mp h
    obtain ⟨rfl, _⟩ := matches_look_iff.mp hlook
    exact hp
  · intro h
    exact .seq (m := []) (.look rfl) h

theorem Prefers.atStart (h : p.Prefers none m after) : p.atStart.Prefers none m after :=
  .seq (m := []) (.look rfl) h

end Pattern

theorem TokenRule.Takes.matches {rule : TokenRule} {s : List Char} {n : Nat}
    (hrule : rule.regex.pattern.anchored = true) (h : rule.Takes s n) :
    ∃ m rest, s = m ++ rest ∧ m.length = n ∧ rule.regex.pattern.Matches none m rest := by
  obtain ⟨gap, m, rest, rfl, rfl, hmatch⟩ := Regex.matchEnd?_eq_some h.1
  obtain ⟨rfl, _⟩ := lastRead_eq_none_iff.mp (Pattern.before_eq_none_of_anchored hrule hmatch)
  exact ⟨m, rest, rfl, rfl, hmatch⟩

namespace Lexicon

variable {lex : Lexicon} {here : Location} {kind : TokenKind} {c : Char} {m rest : List Char}

/-- The kinds and patterns of the rules that can match where this character comes first. -/
def candidates (lex : Lexicon) (c : Char) : List (TokenKind × Pattern) :=
  (lex.rules.filter (·.regex.pattern.opens c)).map fun rule => (rule.kind, rule.regex.pattern)

/-- A lexicon all of whose rules have anchored matches only. -/
def Anchored (lex : Lexicon) : Prop :=
  ∀ rule ∈ lex.rules, rule.regex.pattern.anchored = true

instance (lex : Lexicon) : Decidable lex.Anchored :=
  inferInstanceAs (Decidable (∀ rule ∈ lex.rules, _))

/-- The first candidate that matches gives the token, of the length that it prefers. -/
theorem begins_of_candidates (hlex : lex.Anchored) (before : List (TokenKind × Pattern))
    {after : List (TokenKind × Pattern)} {p : Pattern}
    (h : lex.candidates c = before ++ (kind, p) :: after)
    (hbefore : ∀ q ∈ before, ∀ x y, c :: m ++ rest = x ++ y → ¬ q.2.Matches none x y)
    (hp : p.Prefers none (c :: m) rest) : lex.Begins kind (c :: m) rest := by
  obtain ⟨earlier, found, hfilter, hearlier, hfound⟩ := List.map_eq_append_iff.mp h
  obtain ⟨rule, later, rfl, hrule, _⟩ := List.map_eq_cons_iff.mp hfound
  obtain ⟨rfl, rfl⟩ := Prod.mk.inj hrule
  obtain ⟨first, second, hrules, hfirst, hsecond⟩ := List.filter_eq_append_iff.mp hfilter
  obtain ⟨skipped, others, rfl, hskipped, _, _⟩ := List.filter_eq_cons_iff.mp hsecond
  have hmatch : lex.matchPrefix? (c :: m ++ rest) (c :: m ++ rest).length =
      some (rule.kind, (c :: m).length) := by
    refine matchPrefix?_eq_some_iff.mpr ⟨first ++ skipped, rule, others, by simp [hrules], rfl,
      ⟨Regex.matchEnd?_of_prefers hp, Nat.succ_pos _⟩, ?_⟩
    intro other hother n htakes
    have hmem : other ∈ lex.rules := by
      rw [hrules]
      rcases List.mem_append.mp hother with hother | hother <;> simp [hother]
    obtain ⟨x, y, hxy, rfl, hmatch⟩ := htakes.matches (hlex other hmem)
    obtain ⟨x, rfl⟩ : ∃ t, x = c :: t := by
      cases x with
      | nil => exact absurd htakes.2 (Nat.lt_irrefl 0)
      | cons d t => exact ⟨t, by rw [(List.cons.inj hxy).1]⟩
    have hopens : other.regex.pattern.opens c = true := hmatch.opening.2 c rfl
    rcases List.mem_append.mp hother with hother | hother
    · have hcandidate : (other.kind, other.regex.pattern) ∈ before := by
        rw [← hearlier, ← hfirst]
        exact List.mem_map.mpr ⟨other, List.mem_filter.mpr ⟨hother, hopens⟩, rfl⟩
      exact hbefore _ hcandidate _ _ hxy hmatch
    · exact hskipped other hother hopens
  rw [Begins, firstToken, hmatch]
  rfl

/-- A token of a kind for which the standard lexicon has one pattern is a match of the pattern. -/
theorem matches_of_mem_scan {pattern : String} {p : Pattern} {groups : Nat}
    {names : List (String × Nat)} {text : String} {t : Token}
    (hrules : ∀ call ∈ standardRules, call.1 = kind → call.2.1 = pattern)
    (hread : Regex.read {} ("\\A(?:" ++ pattern ++ ")").toList = .ok ⟨p.atStart, groups, names⟩)
    (hkind : kind ≠ .unknown) (ht : t ∈ standard.scan text) (htk : t.kind = kind) :
    ∃ rest, p.Matches none t.raw.toList rest := by
  obtain ⟨rest, hbegins⟩ := (standard.scan_cuts text).begins_of_mem ht
  obtain ⟨before, rule, after, hstandard, hrule, htakes, _⟩ :=
    matchPrefix?_eq_some_iff.mp (hbegins.matchPrefix?_eq (htk ▸ hkind))
  have hregex : rule.regex = ⟨p.atStart, groups, names⟩ := by
    rw [standard] at hstandard
    exact regex_of_calls hrules hread (by simp [hstandard]) (hrule.trans htk)
  obtain ⟨m, after, hm, hlength, hmatch⟩ := htakes.matches (by rw [hregex]; rfl)
  obtain ⟨rfl, rfl⟩ := List.append_inj hm hlength.symm
  rw [hregex] at hmatch
  exact ⟨rest, Pattern.matches_atStart_iff.mp hmatch⟩

theorem Cuts.eq_nil {tokens : List Token} (h : lex.Cuts here [] tokens) : tokens = [] := by
  generalize hs : ([] : List Char) = s at h
  cases h with
  | done => rfl
  | token hne _ _ => exact absurd hs.symm hne

/-- The tokens of a text that begins with a known token. -/
theorem Cuts.of_begins {tokens : List Token} (hm : m ≠ []) (hfirst : lex.Begins kind m rest)
    (h : lex.Cuts here (m ++ rest) tokens) :
    ∃ later, tokens = makeToken kind m here :: later ∧
      lex.Cuts (here.after (kind == .newline) m) rest later := by
  generalize hs : m ++ rest = s at h
  cases h with
  | done => simp [hm] at hs
  | token _ hfirst' hcuts =>
    subst hs
    obtain ⟨rfl, rfl⟩ := Prod.mk.inj (hfirst.symm.trans hfirst')
    rw [List.take_left] at hcuts ⊢
    rw [List.drop_left] at hcuts
    exact ⟨_, rfl, hcuts⟩

/-- The first token of a text as its beginning says. -/
theorem Begins.scan_eq (hm : m ≠ []) (h : lex.Begins kind m rest) :
    ∃ later, lex.scan (String.ofList (m ++ rest)) = makeToken kind m .start :: later := by
  have hcuts := lex.scan_cuts (String.ofList (m ++ rest))
  rw [String.toList_ofList] at hcuts
  obtain ⟨later, htokens, _⟩ := hcuts.of_begins hm h
  exact ⟨later, htokens⟩

end Lexicon

end Verdict
