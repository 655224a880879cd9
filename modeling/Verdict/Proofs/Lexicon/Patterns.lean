import Verdict.Proofs.Lexicon.Candidates

namespace Verdict

namespace Pattern

/-- A text, and what follows it. -/
def spelled (k : List Char) (ps : List Pattern) : Pattern :=
  seqAll (k.map (fun c => one (.char c)) ++ ps)

/-- Any number of passes, as many as there can be. -/
def star (p : Pattern) : Pattern := .loop 0 none true p

/-- As `star`, at least one pass. -/
def plus (p : Pattern) : Pattern := .loop 1 none true p

def anyOf (s : String) : Pattern := .one (.ofText s)

def noneOf (s : String) : Pattern := .one (.compl (.ofText s))

/-- A backslash and what it takes along. -/
def escape : Pattern := spelled "\\".toList [noneOf "\n"]

def boundary : Pattern := .look (.wordBoundary .unicode)

def keyword (k : List Char) : Pattern := spelled k [boundary]

def negation : Pattern :=
  spelled "is".toList [.seq (plus (.one .blank)) (keyword "not".toList)]

def boolean : Pattern :=
  .seq (.alt (spelled "true".toList []) (spelled "false".toList [])) boundary

def letter : CharSet := .union (.range 'a' 'z') (.union (.range 'A' 'Z') (.char '_'))

def name : Pattern := seqAll [.one letter, star (.one .word)]

def call : Pattern :=
  seqAll [.one letter, star (.one .word), star (.one .blank), .one (.char '(')]

section Matches

variable {p : Pattern} {ps : List Pattern} {k m n after : List Char} {before : Option Char}

theorem Prefers.matches (h : p.Prefers before m after) : p.Matches before m after := by
  obtain ⟨t, hhead, ht⟩ := h ⟨before, m ++ after, (m ++ after).length, []⟩ rfl rfl rfl
  obtain ⟨x, hx, hmatch⟩ := leads_of_mem_ends (List.mem_of_mem_head? hhead)
  obtain rfl : t.rest = after := rest_of_reads rfl ht
  obtain rfl : m = x := List.append_cancel_right (hx.rest : m ++ t.rest = x ++ t.rest)
  exact hmatch

theorem matches_seqAll_nil_iff : (seqAll []).Matches before m after ↔ m = [] := by
  constructor
  · rintro ⟨⟩
    rfl
  · rintro rfl
    exact Matches.empty

theorem Prefers.empty : Pattern.empty.Prefers before [] after :=
  fun s _ _ _ => ⟨s, rfl, .refl s⟩

theorem matches_seqAll_cons_iff : (seqAll (p :: ps)).Matches before m after ↔
    ∃ x y, m = x ++ y ∧ p.Matches before x (y ++ after) ∧
      (seqAll ps).Matches (lastRead before x) y after := by
  cases ps with
  | nil =>
    have hone : seqAll [p] = p := rfl
    simp [hone, matches_seqAll_nil_iff]
  | cons q ps => exact matches_seq_iff

theorem Prefers.seqAll_cons (hp : p.Prefers before m (n ++ after))
    (hps : (seqAll ps).Prefers (lastRead before m) n after) :
    (seqAll (p :: ps)).Prefers before (m ++ n) after := by
  cases ps with
  | nil =>
    obtain rfl := matches_seqAll_nil_iff.mp hps.matches
    rw [List.append_nil]
    exact hp
  | cons q ps => exact .seq hp hps

theorem matches_spelled_iff : (spelled k ps).Matches before m after ↔
    ∃ n, m = k ++ n ∧ (seqAll ps).Matches (lastRead before k) n after := by
  unfold spelled
  induction k generalizing before m with
  | nil => simp [lastRead]
  | cons c k ih =>
    rw [List.map_cons, List.cons_append, matches_seqAll_cons_iff]
    simp only [ih, matches_one_iff, CharSet.contains, beq_iff_eq]
    constructor
    · rintro ⟨_, _, rfl, ⟨d, rfl, rfl⟩, n, rfl, hn⟩
      exact ⟨n, rfl, by rwa [← lastRead_append] at hn⟩
    · rintro ⟨n, rfl, hn⟩
      exact ⟨[c], k ++ n, rfl, ⟨c, rfl, rfl⟩, n, rfl, by rwa [← lastRead_append]⟩

theorem Prefers.spelled (h : (seqAll ps).Prefers (lastRead before k) n after) :
    (spelled k ps).Prefers before (k ++ n) after := by
  unfold Pattern.spelled
  induction k generalizing before with
  | nil => simpa [lastRead] using h
  | cons c k ih => exact .seqAll_cons (m := [c]) (.one (by simp)) (ih (by rwa [← lastRead_append]))

theorem matches_noneOf_iff {s : String} :
    (noneOf s).Matches before m after ↔ ∃ c, m = [c] ∧ c ∉ s.toList := by
  simp only [noneOf, matches_one_iff, CharSet.contains_compl, Bool.not_eq_true',
    ← Bool.not_eq_true, CharSet.contains_ofText_iff]

end Matches

end Pattern

namespace Lexicon

open Pattern

/-- The rules for the words with a meaning of their own. -/
def reservedRules : List (TokenKind × Pattern) :=
  [(.comparison .equal, keyword "is".toList), (.comparison .member, keyword "in".toList),
   (.connective .and, keyword "and".toList), (.connective .or, keyword "or".toList),
   (.boolean, boolean), (.null, keyword "null".toList),
   (.undefined, keyword "undefined".toList)]

/-- The kinds and patterns of the rules of the standard lexicon. -/
def standardPatterns : List (TokenKind × Pattern) :=
  [(.comment, altAll [spelled "//".toList [star (noneOf "\r\n")],
      spelled "#".toList [star (noneOf "\r\n")],
      spelled "/*".toList [.loop 0 none false (.one (.union .blank (.compl .blank))),
        spelled "*/".toList []]]),
   (.newline, seqAll [.loop 0 (some 1) true (.one (.char '\r')), .one (.char '\n')]),
   (.space, plus (anyOf " \t\r")),
   (.method, spelled ".".toList [star (.one .blank), call]),
   (.regex, spelled "/".toList [.alt escape (noneOf "\\/\r\n*"),
      star (.alt escape (noneOf "\\/\r\n")), .one (.char '/'), star (anyOf "gimsuy")]),
   (.comparison .equalStrict, spelled "===".toList []),
   (.comparison .notEqualStrict, spelled "!==".toList []),
   (.comparison .equal, spelled "==".toList []),
   (.comparison .notEqual, .alt (spelled "!=".toList []) (spelled "<>".toList [])),
   (.comparison .lessEqual, spelled "<=".toList []),
   (.comparison .greaterEqual, spelled ">=".toList []),
   (.connective .and, spelled "&&".toList []),
   (.connective .or, spelled "||".toList []),
   (.comparison .notEqual, negation)] ++ reservedRules ++
  [(.comparison .equal, spelled "=".toList []),
   (.comparison .less, spelled "<".toList []),
   (.comparison .greater, spelled ">".toList []),
   (.function, call),
   (.float, seqAll [.loop 0 (some 1) true (.one (.char '-')), plus (.one .digit),
      .one (.char '.'), plus (.one .digit)]),
   (.integer, seqAll [.loop 0 (some 1) true (.one (.char '-')), plus (.one .digit)]),
   (.string, .alt (spelled "\"".toList [star (.alt escape (noneOf "\"\\")), .one (.char '"')])
      (spelled "'".toList [star (.alt escape (noneOf "'\\")), .one (.char '\'')])),
   (.identifier, name),
   (.openParen, spelled "(".toList []),
   (.closeParen, spelled ")".toList []),
   (.openBracket, spelled "[".toList []),
   (.closeBracket, spelled "]".toList []),
   (.comma, spelled ",".toList [])]

theorem standard_patterns : standard.rules.map (fun rule => (rule.kind, rule.regex.pattern)) =
    standardPatterns.map fun entry => (entry.1, entry.2.atStart) := by
  decide +kernel

theorem anchored_standard : standard.Anchored := by
  intro rule hrule
  have hmem := List.mem_map_of_mem (f := fun rule => (rule.kind, rule.regex.pattern)) hrule
  rw [standard_patterns] at hmem
  obtain ⟨entry, _, hentry⟩ := List.mem_map.mp hmem
  rw [← (Prod.mk.inj hentry).2]
  rfl

theorem candidates_standard : standard.candidates = fun c =>
    (standardPatterns.filter (·.2.opens c)).map fun entry => (entry.1, entry.2.atStart) := by
  funext c
  have hfilter : standard.candidates c =
      (standard.rules.map fun rule => (rule.kind, rule.regex.pattern)).filter (·.2.opens c) := by
    rw [List.filter_map]
    rfl
  rw [hfilter, standard_patterns, List.filter_map]
  rfl

end Lexicon

end Verdict
