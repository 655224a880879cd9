import Verdict.Proofs.Lexicon.Patterns
import Verdict.Proofs.Number.Numeral
import Verdict.Proofs.Text.Table

namespace Verdict

section Names

variable {c : Char} {w t x y : List Char}

/-- A text before which a word ends: no word character comes first. -/
def EndsWord (t : List Char) : Prop := t.head?.any isWord = false

instance (t : List Char) : Decidable (EndsWord t) := inferInstanceAs (Decidable (_ = _))

/-- A word: a letter of ASCII or an underscore, and then word characters. -/
def IsName : List Char → Prop
  | [] => False
  | c :: cs => (c.isAlpha = true ∨ c = '_') ∧ cs.all isWord = true

instance : DecidablePred IsName
  | [] => isFalse id
  | _ :: _ => inferInstanceAs (Decidable (_ ∧ _))

/-- Some word characters, of which a word with a meaning of its own is made. -/
def WordText (k : List Char) : Prop := k ≠ [] ∧ k.all isWord = true

instance (k : List Char) : Decidable (WordText k) := inferInstanceAs (Decidable (_ ∧ _))

/-- What a word can begin with. -/
def initials : List Char :=
  (95 :: (List.range' 65 26 ++ List.range' 97 26)).map Char.ofNat

theorem endsWord_blanks_append (hx : ∀ c ∈ x, isBlank c = true) (h : x = [] → EndsWord y) :
    EndsWord (x ++ y) := by
  cases x with
  | nil => exact h rfl
  | cons d x => exact isWord_of_isBlank (hx d List.mem_cons_self)

/-- A text begins with one run of word characters. -/
theorem eq_of_append_endsWord (hw : ∀ c ∈ w, isWord c = true) (ht : EndsWord t)
    (hx : ∀ c ∈ x, isWord c = true) (hy : EndsWord y) (h : w ++ t = x ++ y) : w = x ∧ t = y := by
  have hspan : ∀ {u v : List Char}, (∀ c ∈ u, isWord c = true) → EndsWord v →
      (u ++ v).span isWord = (u, v) := by
    intro u v hu hv
    refine span_append hu fun c hc => ?_
    simpa [EndsWord, hc] using hv
  exact Prod.mk.inj ((hspan hw ht).symm.trans ((congrArg (List.span isWord) h).trans (hspan hx hy)))

theorem isAlpha_iff :
    c.isAlpha = true ↔ 65 ≤ c.toNat ∧ c.toNat ≤ 90 ∨ 97 ≤ c.toNat ∧ c.toNat ≤ 122 := by
  have hupper : c.isUpper = true ↔ 65 ≤ c.toNat ∧ c.toNat ≤ 90 :=
    decide_eq_true_iff.trans (and_congr UInt32.le_iff_toNat_le UInt32.le_iff_toNat_le)
  have hlower : c.isLower = true ↔ 97 ≤ c.toNat ∧ c.toNat ≤ 122 :=
    (Bool.and_eq_true_iff).trans (and_congr (decide_eq_true_iff.trans UInt32.le_iff_toNat_le)
      (decide_eq_true_iff.trans UInt32.le_iff_toNat_le))
  exact Bool.or_eq_true_iff.trans (or_congr hupper hlower)

theorem toNat_of_initial (h : c.isAlpha = true ∨ c = '_') :
    c.toNat = 95 ∨ (65 ≤ c.toNat ∧ c.toNat ≤ 90 ∨ 97 ≤ c.toNat ∧ c.toNat ≤ 122) := by
  rcases h with halpha | rfl
  · exact .inr (isAlpha_iff.mp halpha)
  · exact .inl rfl

theorem mem_initials (h : c.isAlpha = true ∨ c = '_') : c ∈ initials := by
  have hcode := toNat_of_initial h
  refine List.mem_map.mpr ⟨c.toNat, ?_, Char.ofNat_toNat c⟩
  simp only [List.mem_cons, List.mem_append, List.mem_range'_1]
  omega

theorem isWord_of_initial (h : c.isAlpha = true ∨ c = '_') : isWord c = true := by
  have hcode := toNat_of_initial h
  rw [isWord, if_pos (by omega)]
  rcases h with halpha | rfl
  · have halphanum : c.isAlphanum = true := Bool.or_eq_true_iff.mpr (.inl halpha)
    rw [halphanum, Bool.true_or]
  · rfl

theorem IsName.exists_cons (hw : IsName w) : ∃ c cs, w = c :: cs ∧
    (c.isAlpha = true ∨ c = '_') ∧ ∀ d ∈ cs, isWord d = true := by
  cases w with
  | nil => exact hw.elim
  | cons c cs => exact ⟨c, cs, rfl, hw.1, List.all_eq_true.mp hw.2⟩

theorem IsName.isWord_of_mem (hw : IsName w) (hc : c ∈ w) : isWord c = true := by
  obtain ⟨d, cs, rfl, hd, hcs⟩ := hw.exists_cons
  rcases List.mem_cons.mp hc with rfl | hc
  · exact isWord_of_initial hd
  · exact hcs c hc

end Names

namespace Pattern

section Words

variable {before : Option Char} {c : Char} {k w m after x y : List Char}

theorem any_isWord_lastRead (hk : WordText k) : (lastRead before k).any isWord = true := by
  rw [lastRead, List.getLast?_eq_some_getLast hk.1]
  exact List.all_eq_true.mp hk.2 _ (List.getLast_mem hk.1)

/-- After a word, the boundary is where no word character comes next. -/
theorem holds_boundary_iff (hbefore : before.any isWord = true) :
    (Look.wordBoundary .unicode).holds before after.head? = true ↔ EndsWord after := by
  have hkind : WordKind.unicode.contains = isWord := rfl
  simp [Look.holds, hkind, hbefore, EndsWord]

theorem matches_boundary_iff (hbefore : before.any isWord = true) :
    boundary.Matches before m after ↔ m = [] ∧ EndsWord after := by
  rw [boundary, matches_look_iff, holds_boundary_iff hbefore]

theorem Prefers.boundary (hbefore : before.any isWord = true) (hafter : EndsWord after) :
    Pattern.boundary.Prefers before [] after :=
  .look ((holds_boundary_iff hbefore).mpr hafter)

theorem matches_keyword_iff (hk : WordText k) :
    (keyword k).Matches before m after ↔ m = k ∧ EndsWord after := by
  have hboundary : ∀ {n}, (seqAll [boundary]).Matches (lastRead before k) n after ↔
      n = [] ∧ EndsWord after := matches_boundary_iff (any_isWord_lastRead hk)
  simp [keyword, matches_spelled_iff, hboundary]

theorem prefers_keyword (hk : WordText k) (hafter : EndsWord after) :
    (keyword k).Prefers before k after := by
  have hboundary : (seqAll [boundary]).Prefers (lastRead before k) [] after :=
    .boundary (any_isWord_lastRead hk) hafter
  have hspelled : (spelled k [boundary]).Prefers before (k ++ []) after := hboundary.spelled
  rwa [List.append_nil] at hspelled

theorem contains_letter_iff : letter.contains c = true ↔ c.isAlpha = true ∨ c = '_' := by
  rw [isAlpha_iff]
  simp only [letter, CharSet.contains, Char.le_def, UInt32.le_iff_toNat_le, Bool.or_eq_true,
    Bool.and_eq_true, decide_eq_true_eq, beq_iff_eq]
  rw [← or_assoc]
  exact or_congr_left or_comm

/-- `is` and `not` with blanks between them. -/
theorem matches_negation_iff : negation.Matches before m after ↔
    ∃ blanks, m = "is".toList ++ (blanks ++ "not".toList) ∧
      (blanks ≠ [] ∧ ∀ c ∈ blanks, isBlank c = true) ∧ EndsWord after := by
  have hnot : ∀ {b n}, (keyword "not".toList).Matches b n after ↔
      n = "not".toList ∧ EndsWord after := matches_keyword_iff (by decide)
  have hone : ∀ {p b n a}, (seqAll [p]).Matches b n a ↔ p.Matches b n a := Iff.rfl
  simp only [negation, plus, matches_spelled_iff, hone, matches_seq_iff, hnot, matches_loop_one_iff,
    CharSet.contains, Nat.one_le_iff_ne_zero, Ne, List.length_eq_zero_iff]
  constructor
  · rintro ⟨_, rfl, blanks, _, rfl, hblanks, rfl, hafter⟩
    exact ⟨blanks, rfl, hblanks, hafter⟩
  · rintro ⟨blanks, rfl, hblanks, hafter⟩
    exact ⟨_, rfl, blanks, _, rfl, hblanks, rfl, hafter⟩

theorem prefers_negation (hne : x ≠ []) (hx : ∀ c ∈ x, isBlank c = true) (hafter : EndsWord after) :
    negation.Prefers before ("is".toList ++ (x ++ "not".toList)) after := by
  have hnot : (keyword "not".toList).Prefers (lastRead (lastRead before "is".toList) x)
      "not".toList after := prefers_keyword (by decide) hafter
  refine .spelled (.seq (.oneOrMoreOf hne hx fun c hc => ?_) hnot)
  obtain rfl : 'n' = c := Option.some.inj hc
  decide

theorem matches_boolean_iff : boolean.Matches before m after ↔
    (m = "true".toList ∨ m = "false".toList) ∧ EndsWord after := by
  have hspelled : ∀ {k b n a}, (spelled k []).Matches b n a ↔ n = k := by
    intro k b n a
    simp [matches_spelled_iff, matches_seqAll_nil_iff]
  simp only [boolean, matches_seq_iff, matches_alt_iff, hspelled]
  constructor
  · rintro ⟨k, n, rfl, hk, hn⟩
    have hword : (lastRead before k).any isWord = true := by
      rcases hk with rfl | rfl <;> exact any_isWord_lastRead (by decide)
    obtain ⟨rfl, hafter⟩ := (matches_boundary_iff hword).mp hn
    exact ⟨by simpa using hk, hafter⟩
  · rintro ⟨hm, hafter⟩
    refine ⟨m, [], by simp, hm, ?_⟩
    have hword : (lastRead before m).any isWord = true := by
      rcases hm with rfl | rfl <;> exact any_isWord_lastRead (by decide)
    exact (matches_boundary_iff hword).mpr ⟨rfl, hafter⟩

theorem prefers_boolean (hm : m = "true".toList ∨ m = "false".toList) (hafter : EndsWord after) :
    boolean.Prefers before m after := by
  have hspelled : ∀ {k b}, (spelled k []).Prefers b (k ++ []) after := .spelled .empty
  have hboundary : boundary.Prefers (lastRead before m) [] after := by
    refine .boundary ?_ hafter
    rcases hm with rfl | rfl <;> exact any_isWord_lastRead (by decide)
  have hseq : boolean.Prefers before (m ++ []) after := by
    refine .seq ?_ hboundary
    rcases hm with rfl | rfl
    · exact .left hspelled
    · refine .right (not_matches_of_opens rfl fun c hc => ?_) hspelled
      obtain rfl : 'f' = c := Option.some.inj hc
      decide
  rwa [List.append_nil] at hseq

theorem contains_word_of_head? (hafter : EndsWord after) (hc : after.head? = some c) :
    CharSet.word.contains c = false := by
  change isWord c = false
  simpa [EndsWord, hc] using hafter

theorem prefers_name (hw : IsName w) (hafter : EndsWord after) : name.Prefers before w after := by
  obtain ⟨c, cs, rfl, hc, hcs⟩ := hw.exists_cons
  exact .seqAll_cons (m := [c]) (.one (contains_letter_iff.mpr hc))
    (.many rfl (.all hcs fun d => contains_word_of_head? hafter))

theorem matches_call_iff : call.Matches before m after ↔ ∃ c cs blanks,
    m = (c :: cs) ++ (blanks ++ ['(']) ∧ letter.contains c = true ∧ (∀ d ∈ cs, isWord d = true) ∧
      ∀ d ∈ blanks, isBlank d = true := by
  simp only [call, star, matches_seqAll_cons_iff, matches_one_iff, matches_loop_one_iff,
    matches_seqAll_nil_iff, CharSet.contains, beq_iff_eq]
  constructor
  · rintro ⟨_, _, rfl, ⟨c, rfl, hc⟩, cs, _, rfl, ⟨_, hcs⟩, blanks, _, rfl, ⟨_, hblanks⟩, _, _, rfl,
      ⟨_, rfl, rfl⟩, rfl⟩
    exact ⟨c, cs, blanks, rfl, hc, hcs, hblanks⟩
  · rintro ⟨c, cs, blanks, rfl, hc, hcs, hblanks⟩
    exact ⟨[c], _, rfl, ⟨c, rfl, hc⟩, cs, _, rfl, ⟨Nat.zero_le _, hcs⟩, blanks, _, rfl,
      ⟨Nat.zero_le _, hblanks⟩, ['('], [], rfl, ⟨'(', rfl, rfl⟩, rfl⟩

theorem prefers_call (hw : IsName w) (hx : ∀ c ∈ x, isBlank c = true) :
    call.Prefers before (w ++ (x ++ ['('])) after := by
  obtain ⟨c, cs, rfl, hc, hcs⟩ := hw.exists_cons
  refine .seqAll_cons (m := [c]) (.one (contains_letter_iff.mpr hc))
    (.seqAll_cons (.many rfl (.all hcs fun d hd => ?_))
      (.seqAll_cons (.many rfl (.all hx fun d hd => ?_)) (.one rfl)))
  · refine contains_word_of_head? ?_ hd
    rw [List.append_assoc]
    exact endsWord_blanks_append hx fun _ => rfl
  · obtain rfl : '(' = d := Option.some.inj hd
    rfl

end Words

end Pattern

namespace Lexicon

open Pattern

/-- The words with a meaning of their own. -/
def reservedWords : List (List Char × TokenKind) :=
  [("is".toList, .comparison .equal), ("in".toList, .comparison .member),
   ("and".toList, .connective .and), ("or".toList, .connective .or),
   ("true".toList, .boolean), ("false".toList, .boolean), ("null".toList, .null),
   ("undefined".toList, .undefined)]

/-- Whether a text reads `is not`, where its first word has been read. -/
def Negated (w t : List Char) : Prop :=
  w = "is".toList ∧ t.takeWhile isBlank ≠ [] ∧ "not".toList <+: t.dropWhile isBlank ∧
    EndsWord ((t.dropWhile isBlank).drop 3)

instance (w t : List Char) : Decidable (Negated w t) := inferInstanceAs (Decidable (_ ∧ _))

/-- The kind and the number of characters of the token that a word begins, with the text after the
word. -/
def wordToken (w t : List Char) : TokenKind × Nat :=
  let blanks := t.takeWhile isBlank
  if Negated w t then (.comparison .notEqual, w.length + blanks.length + 3)
  else
    match reservedWords.lookup w with
    | some kind => (kind, w.length)
    | none =>
      if (t.dropWhile isBlank).head? = some '(' then (.function, w.length + blanks.length + 1)
      else (.identifier, w.length)

/-- The rules that can match where a word begins. All but the last two are for certain words, and
hold on to them by the boundary after the word. -/
def wordRules : List (TokenKind × Pattern) :=
  (.comparison .notEqual, negation) :: (reservedRules ++ [(.function, call), (.identifier, name)])

theorem filter_standardPatterns :
    standardPatterns.filter (fun rule => initials.any rule.2.opens) = wordRules := by
  decide +kernel

theorem candidates_initial {c : Char} (hc : c ∈ initials) : standard.candidates c =
    (wordRules.filter (·.2.opens c)).map fun rule => (rule.1, rule.2.atStart) := by
  rw [candidates_standard, ← filter_standardPatterns, List.filter_filter]
  refine congrArg (List.map _) (List.filter_congr fun rule _ => ?_)
  cases hopens : rule.2.opens c with
  | false => rfl
  | true => exact (List.any_eq_true.mpr ⟨c, hc, hopens⟩).symm

variable {kind : TokenKind} {p : Pattern} {w t x y rest : List Char}

/-- The first rule for words that matches gives the token, of the length that it prefers. -/
theorem begins_of_wordRules (before : List (TokenKind × Pattern))
    {after : List (TokenKind × Pattern)} (h : wordRules = before ++ (kind, p) :: after)
    (hw : IsName w)
    (hbefore : ∀ q ∈ before, ∀ x y, w ++ (t ++ rest) = x ++ y → ¬ q.2.Matches none x y)
    (hp : p.Prefers none (w ++ t) rest) : standard.Begins kind (w ++ t) rest := by
  obtain ⟨c, cs, rfl, hc, _⟩ := hw.exists_cons
  have hopens : p.opens c = true := hp.matches.opening.2 c rfl
  have hcandidates := candidates_initial (mem_initials hc)
  rw [h, List.filter_append, List.filter_cons_of_pos (by exact hopens), List.map_append,
    List.map_cons] at hcandidates
  refine begins_of_candidates anchored_standard _ hcandidates ?_ hp.atStart
  intro q hq x y hxy hmatch
  obtain ⟨rule, hrule, rfl⟩ := List.mem_map.mp hq
  refine hbefore rule (List.mem_filter.mp hrule).1 x y ?_ (matches_atStart_iff.mp hmatch)
  rw [← hxy]
  simp

theorem wordText_of_reserved : ∀ k ∈ reservedWords, WordText k.1 := by decide

theorem mem_reservedWords_of_matches {q : TokenKind × Pattern} (hq : q ∈ reservedRules)
    (h : q.2.Matches none x y) : (x, q.1) ∈ reservedWords ∧ EndsWord y := by
  have hkeyword : ∀ {k kind}, (k, kind) ∈ reservedWords → (keyword k).Matches none x y →
      (x, kind) ∈ reservedWords ∧ EndsWord y := by
    intro k kind hk h
    obtain ⟨rfl, hy⟩ := (matches_keyword_iff (wordText_of_reserved _ hk)).mp h
    exact ⟨hk, hy⟩
  -- Each rule but that for booleans is for one word.
  simp only [reservedRules, List.mem_cons, List.not_mem_nil, or_false] at hq
  rcases hq with rfl | rfl | rfl | rfl | rfl | rfl | rfl
  case inr.inr.inr.inr.inl =>
    obtain ⟨hx, hy⟩ := matches_boolean_iff.mp h
    rcases hx with rfl | rfl <;> exact ⟨by decide, hy⟩
  all_goals exact hkeyword (by decide) h

theorem exists_reservedRule (hw : (w, kind) ∈ reservedWords) (ht : EndsWord t) :
    ∃ p, (kind, p) ∈ reservedRules ∧ p.Prefers none w t := by
  have hkeyword : ∀ {k kind}, (kind, keyword k) ∈ reservedRules → WordText k →
      ∃ p, (kind, p) ∈ reservedRules ∧ p.Prefers none k t :=
    fun hk hword => ⟨_, hk, prefers_keyword hword ht⟩
  have hboolean : (TokenKind.boolean, boolean) ∈ reservedRules := by decide
  simp only [reservedWords, List.mem_cons, List.not_mem_nil, or_false, Prod.mk.injEq] at hw
  rcases hw with ⟨rfl, rfl⟩ | ⟨rfl, rfl⟩ | ⟨rfl, rfl⟩ | ⟨rfl, rfl⟩ | ⟨rfl, rfl⟩ | ⟨rfl, rfl⟩ |
    ⟨rfl, rfl⟩ | ⟨rfl, rfl⟩
  case inr.inr.inr.inr.inl => exact ⟨_, hboolean, prefers_boolean (.inl rfl) ht⟩
  case inr.inr.inr.inr.inr.inl => exact ⟨_, hboolean, prefers_boolean (.inr rfl) ht⟩
  all_goals exact hkeyword (by decide) (by decide)

theorem mem_reservedWords_of_rule {q : TokenKind × Pattern} (hw : IsName w) (ht : EndsWord t)
    (hq : q ∈ reservedRules) (hxy : w ++ t = x ++ y) (h : q.2.Matches none x y) :
    (w, q.1) ∈ reservedWords := by
  obtain ⟨hx, hy⟩ := mem_reservedWords_of_matches hq h
  obtain ⟨rfl, _⟩ := eq_of_append_endsWord (fun c => hw.isWord_of_mem) ht
    (List.all_eq_true.mp (wordText_of_reserved _ hx).2) hy hxy
  exact hx

theorem negated_of_matches (hw : IsName w) (ht : EndsWord t) (hxy : w ++ t = x ++ y)
    (h : negation.Matches none x y) : Negated w t := by
  obtain ⟨blanks, rfl, ⟨hne, hblanks⟩, hy⟩ := matches_negation_iff.mp h
  rw [List.append_assoc, List.append_assoc] at hxy
  have hends : EndsWord (blanks ++ ("not".toList ++ y)) :=
    endsWord_blanks_append hblanks fun hnil => absurd hnil hne
  obtain ⟨rfl, rfl⟩ := eq_of_append_endsWord (fun c => hw.isWord_of_mem) ht
    (List.all_eq_true.mp (by decide)) hends hxy
  have hspan : (blanks ++ ("not".toList ++ y)).span isBlank = (blanks, "not".toList ++ y) :=
    span_append hblanks (by rintro _ ⟨⟩; decide)
  rw [List.span_eq_takeWhile_dropWhile, Prod.mk.injEq] at hspan
  rw [Negated, hspan.1, hspan.2]
  exact ⟨rfl, hne, List.prefix_append _ _, hy⟩

/-- Where a word has no meaning of its own, no rule for such words matches. -/
theorem not_matches_of_plain {q : TokenKind × Pattern} (hw : IsName w) (ht : EndsWord t)
    (hplain : ∀ kind, (w, kind) ∉ reservedWords)
    (hq : q ∈ (.comparison .notEqual, negation) :: reservedRules) (hxy : w ++ t = x ++ y) :
    ¬ q.2.Matches none x y := by
  intro hmatch
  rcases List.mem_cons.mp hq with rfl | hq
  · obtain ⟨rfl, _⟩ := negated_of_matches hw ht hxy hmatch
    exact hplain (.comparison .equal) (by decide)
  · exact hplain _ (mem_reservedWords_of_rule hw ht hq hxy hmatch)

theorem matchPrefix?_negated (h : Negated w t) : standard.matchPrefix? (w ++ t) (w ++ t).length =
    some (.comparison .notEqual, w.length + (t.takeWhile isBlank).length + 3) := by
  obtain ⟨rfl, hne, ⟨rest, hrest⟩, hends⟩ := h
  have hends' : EndsWord rest := by rwa [← hrest] at hends
  have hblanks : ∀ c ∈ t.takeWhile isBlank, isBlank c = true := fun c => List.mem_takeWhile_imp
  have hbegins : standard.Begins (.comparison .notEqual)
      ("is".toList ++ (t.takeWhile isBlank ++ "not".toList)) rest :=
    begins_of_wordRules [] rfl (by decide) (fun _ hq => absurd hq List.not_mem_nil)
      (prefers_negation hne hblanks hends')
  have hmatch := hbegins.matchPrefix?_eq (by decide)
  rw [List.append_assoc, List.append_assoc, hrest, List.takeWhile_append_dropWhile] at hmatch
  have hlength : "not".toList.length = 3 := rfl
  simpa only [List.length_append, hlength, Nat.add_assoc] using hmatch

theorem matchPrefix?_reserved (hw : IsName w) (ht : EndsWord t) (hnegated : ¬ Negated w t)
    (h : (w, kind) ∈ reservedWords) :
    standard.matchPrefix? (w ++ t) (w ++ t).length = some (kind, w.length) := by
  obtain ⟨p, hp, hprefers⟩ := exists_reservedRule h ht
  obtain ⟨before, after, hrules⟩ := List.append_of_mem hp
  have hsplit : wordRules = ((.comparison .notEqual, negation) :: before) ++
      (kind, p) :: (after ++ [(.function, call), (.identifier, name)]) := by
    change _ :: (reservedRules ++ _) = _
    rw [hrules, List.append_assoc]
    rfl
  have hkind : kind ≠ .unknown := by
    have hkinds : ∀ k ∈ reservedWords, k.2 ≠ .unknown := by decide
    exact hkinds _ h
  have hunique : ∀ k ∈ reservedWords, ∀ k' ∈ reservedWords, k.1 = k'.1 → k.2 = k'.2 := by decide
  have hdistinct : (reservedRules.map Prod.fst).Nodup := by decide
  have hbegins : standard.Begins kind (w ++ []) t := by
    refine begins_of_wordRules _ hsplit hw ?_ (by rwa [List.append_nil])
    intro q hq x y hxy hmatch
    rcases List.mem_cons.mp hq with rfl | hq
    · exact hnegated (negated_of_matches hw ht hxy hmatch)
    · have hreserved := mem_reservedWords_of_rule hw ht (by simp [hrules, hq]) hxy hmatch
      rw [hrules, List.map_append, List.nodup_append] at hdistinct
      exact hdistinct.2.2 q.1 (List.mem_map_of_mem hq) kind List.mem_cons_self
        (hunique _ hreserved _ h rfl)
  rw [List.append_nil] at hbegins
  exact hbegins.matchPrefix?_eq hkind

theorem matchPrefix?_call (hw : IsName w) (ht : EndsWord t)
    (hplain : ∀ kind, (w, kind) ∉ reservedWords) (h : (t.dropWhile isBlank).head? = some '(') :
    standard.matchPrefix? (w ++ t) (w ++ t).length =
      some (.function, w.length + (t.takeWhile isBlank).length + 1) := by
  obtain ⟨rest, hrest⟩ := List.head?_eq_some_iff.mp h
  have hblanks : ∀ c ∈ t.takeWhile isBlank, isBlank c = true := fun c => List.mem_takeWhile_imp
  have htext : t = (t.takeWhile isBlank ++ ['(']) ++ rest := by
    rw [List.append_assoc, List.singleton_append, ← hrest, List.takeWhile_append_dropWhile]
  have hsplit : wordRules = ((.comparison .notEqual, negation) :: reservedRules) ++
      (.function, call) :: [(.identifier, name)] := rfl
  have hbegins : standard.Begins .function (w ++ (t.takeWhile isBlank ++ ['('])) rest := by
    refine begins_of_wordRules _ hsplit hw ?_ (prefers_call hw hblanks)
    intro q hq x y hxy
    rw [← htext] at hxy
    exact not_matches_of_plain hw ht hplain hq hxy
  have hmatch := hbegins.matchPrefix?_eq (by decide)
  rw [List.append_assoc, ← htext] at hmatch
  simpa only [List.length_append, List.length_singleton, Nat.add_assoc] using hmatch

theorem matchPrefix?_name (hw : IsName w) (ht : EndsWord t)
    (hplain : ∀ kind, (w, kind) ∉ reservedWords) (h : (t.dropWhile isBlank).head? ≠ some '(') :
    standard.matchPrefix? (w ++ t) (w ++ t).length = some (.identifier, w.length) := by
  have hsplit : wordRules = ((.comparison .notEqual, negation) :: reservedRules ++
      [(.function, call)]) ++ (.identifier, name) :: [] := rfl
  have hbegins : standard.Begins .identifier (w ++ []) t := by
    refine begins_of_wordRules _ hsplit hw ?_ (by rw [List.append_nil]; exact prefers_name hw ht)
    intro q hq x y hxy hmatch
    rcases List.mem_append.mp hq with hq | hq
    · exact not_matches_of_plain hw ht hplain hq hxy hmatch
    · cases List.mem_singleton.mp hq
      obtain ⟨c, cs, blanks, rfl, hc, hcs, hblanks⟩ := matches_call_iff.mp hmatch
      rw [List.append_assoc] at hxy
      have hends : EndsWord ((blanks ++ ['(']) ++ y) := by
        rw [List.append_assoc]
        exact endsWord_blanks_append hblanks fun _ => rfl
      have hword : ∀ d ∈ c :: cs, isWord d = true :=
        List.forall_mem_cons.mpr ⟨isWord_of_initial (contains_letter_iff.mp hc), hcs⟩
      obtain ⟨_, rfl⟩ := eq_of_append_endsWord (fun c => hw.isWord_of_mem) ht hword hends hxy
      refine h ?_
      rw [List.append_assoc, List.dropWhile_append_of_pos hblanks]
      rfl
  rw [List.append_nil] at hbegins
  exact hbegins.matchPrefix?_eq (by decide)

/-- A word is read as a whole, with what the rule for it takes along. -/
theorem word_never_split (hw : IsName w) (ht : EndsWord t) :
    standard.matchPrefix? (w ++ t) (w ++ t).length = some (wordToken w t) := by
  unfold wordToken
  dsimp only
  split
  next hnegated => exact matchPrefix?_negated hnegated
  next hnegated =>
    split
    next kind hkind =>
      obtain ⟨before, after, hwords, _⟩ := List.lookup_eq_some_iff.mp hkind
      exact matchPrefix?_reserved hw ht hnegated (by simp [hwords])
    next hnone =>
      have hplain : ∀ kind, (w, kind) ∉ reservedWords := by
        intro kind hkind
        have := List.lookup_eq_none_iff.mp hnone _ hkind
        simp at this
      split
      next hcall => exact matchPrefix?_call hw ht hplain hcall
      next hcall => exact matchPrefix?_name hw ht hplain hcall

theorem word_never_split_is_not :
    IsName "is".toList ∧ EndsWord "\u2003not(x".toList ∧
      standard.matchPrefix? ("is".toList ++ "\u2003not(x".toList) 8 =
        some (.comparison .notEqual, 6) ∧
      IsName "isnot".toList ∧ EndsWord "\u2003(x".toList ∧
      standard.matchPrefix? ("isnot".toList ++ "\u2003(x".toList) 8 = some (.function, 7) := by
  have hblank : ∀ t, EndsWord ('\u2003' :: t) := fun t => isWord_of_isBlank (by decide)
  have hnot : wordToken "is".toList "\u2003not(x".toList = (.comparison .notEqual, 6) := by decide
  have hcall : wordToken "isnot".toList "\u2003(x".toList = (.function, 7) := by decide
  refine ⟨by decide, hblank _, ?_, by decide, hblank _, ?_⟩
  · rw [← hnot]
    exact word_never_split (by decide) (hblank _)
  · rw [← hcall]
    exact word_never_split (by decide) (hblank _)

end Lexicon

end Verdict
