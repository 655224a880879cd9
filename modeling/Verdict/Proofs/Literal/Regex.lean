import Verdict.Proofs.Lexicon.Quoted
import Verdict.Proofs.Value.Comparison
import Verdict.Value.Text

namespace Verdict

/-- A literal that is read has the text it is read from. -/
theorem RegexLiteral.text_of_ofText? {s : List Char} {re : RegexLiteral} (h : ofText? s = some re) :
    re.text = String.ofList s := by
  unfold ofText? at h
  split at h
  next body =>
    split at h
    next flags pattern hspan =>
      rw [List.span_eq_takeWhile_dropWhile, Prod.mk.injEq] at hspan
      have hbody : body = pattern.reverse ++ '/' :: flags.reverse := by
        rw [← List.reverse_reverse body, ← List.takeWhile_append_dropWhile (p := (· != '/'))
          (l := body.reverse), hspan.1, hspan.2]
        simp
      cases h
      apply String.toList_injective
      simp [text, hbody]
    next => cases h
  next => cases h

namespace Quotable

variable {quote : Char} {m x y : List Char}

/-- Between two quotes there is none without a backslash before it. -/
theorem getLast?_before (hquote : quote ≠ '\\') (h : Quotable quote m) (hm : m = x ++ quote :: y) :
    x.getLast? = some '\\' := by
  induction h generalizing x with
  | nil => simp at hm
  | @plain c m hc _ _ ih =>
    rcases List.cons_eq_append_iff.mp hm with ⟨_, hhead⟩ | ⟨x', rfl, hm'⟩
    · exact absurd (List.cons.inj hhead).1.symm hc
    · have hlast := ih hm'
      rw [List.getLast?_cons, hlast, Option.getD_some]
  | @escaped c m _ _ ih =>
    rcases List.cons_eq_append_iff.mp hm with ⟨_, hhead⟩ | ⟨x', rfl, hm'⟩
    · exact absurd (List.cons.inj hhead).1 hquote
    · rcases List.cons_eq_append_iff.mp hm' with ⟨rfl, _⟩ | ⟨x'', rfl, hm''⟩
      · rfl
      · have hlast := ih hm''
        rw [List.getLast?_cons, List.getLast?_cons, hlast, Option.getD_some, Option.getD_some]

end Quotable

namespace Pattern

variable {quote : Char} {s : String} {before : Option Char} {m after : List Char}

/-- A character of a body, any but these, or a backslash with the character it takes along. -/
def bodyPart (s : String) : Pattern := .alt escape (noneOf s)

def regex : Pattern :=
  spelled "/".toList [bodyPart "\\/\r\n*", star (bodyPart "\\/\r\n"), .one (.char '/'),
    star (anyOf "gimsuy")]

theorem quotable_of_bodyPart (hquote : quote ∈ s.toList) (hslash : '\\' ∈ s.toList)
    (h : (bodyPart s).Matches before m after) : Quotable quote m ∧ m ≠ [] := by
  rcases matches_alt_iff.mp h with hescape | hplain
  · obtain ⟨n, rfl, hn⟩ := matches_spelled_iff.mp hescape
    obtain ⟨c, rfl, hc⟩ := matches_noneOf_iff.mp (hn : (noneOf "\n").Matches _ n after)
    exact ⟨.escaped (by simpa using hc) .nil, List.cons_ne_nil _ _⟩
  · obtain ⟨c, rfl, hc⟩ := matches_noneOf_iff.mp hplain
    refine ⟨.plain ?_ ?_ .nil, List.cons_ne_nil _ _⟩
    · rintro rfl
      exact hc hquote
    · rintro rfl
      exact hc hslash

theorem quotable_of_star (hquote : quote ∈ s.toList) (hslash : '\\' ∈ s.toList)
    (h : (star (bodyPart s)).Matches before m after) : Quotable quote m := by
  generalize hp : star (bodyPart s) = p at h
  induction h with
  | stop => exact .nil
  | pass _ hpart _ _ ih =>
    cases hp
    exact (quotable_of_bodyPart hquote hslash hpart).1.append (ih rfl)
  | _ => cases hp

/-- The body of a literal, which is not empty, and its flags. -/
theorem body_of_regex (h : regex.Matches before m after) :
    ∃ body flags, m = '/' :: (body ++ '/' :: flags) ∧ Quotable '/' body ∧ body ≠ [] ∧
      ∀ c ∈ flags, c ∈ "gimsuy".toList := by
  obtain ⟨_, rfl, hrest⟩ := matches_spelled_iff.mp h
  obtain ⟨first, _, rfl, hfirst, hrest⟩ := matches_seqAll_cons_iff.mp hrest
  obtain ⟨others, _, rfl, hothers, hrest⟩ := matches_seqAll_cons_iff.mp hrest
  obtain ⟨_, flags, rfl, hclose, hflags⟩ := matches_seqAll_cons_iff.mp hrest
  obtain ⟨c, rfl, hc⟩ := matches_one_iff.mp hclose
  obtain rfl : c = '/' := by simpa using hc
  have hset := (matches_loop_one_iff.mp (hflags : (star (anyOf "gimsuy")).Matches _ flags after)).2
  have hpart : Quotable '/' first ∧ first ≠ [] :=
    quotable_of_bodyPart (by decide) (by decide) hfirst
  have hparts : Quotable '/' others := quotable_of_star (by decide) (by decide) hothers
  exact ⟨first ++ others, flags, by simp, hpart.1.append hparts, by simp [hpart.2],
    fun c hc => CharSet.contains_ofText_iff.mp (hset c hc)⟩

end Pattern

/-- The text of a token for a regular expression is that of a literal: the slash that the lexicon
goes on to is the one that the reader of literals goes back to, since none is a flag and every slash
between has a backslash before it. Its pattern is not empty. -/
theorem Lexicon.regex_of_mem_scan {text : String} {t : Token} (ht : t ∈ standard.scan text)
    (hk : t.kind = .regex) :
    ∃ re : RegexLiteral, RegexLiteral.ofText? t.raw.toList = some re ∧
      Quotable '/' re.pattern.toList ∧ re.pattern ≠ "" ∧
      ∀ c ∈ re.flags.toList, c ∈ "gimsuy".toList := by
  have hrules : ∀ call ∈ standardRules, call.1 = .regex →
      call.2.1 = r"/(?:\\.|[^\\/\r\n*])(?:\\.|[^\\/\r\n])*/[gimsuy]*" := by
    decide
  have hread : Regex.read {}
      ("\\A(?:" ++ r"/(?:\\.|[^\\/\r\n*])(?:\\.|[^\\/\r\n])*/[gimsuy]*" ++ ")").toList =
        .ok ⟨Pattern.regex.atStart, 1, []⟩ := rfl
  obtain ⟨rest, hmatch⟩ := matches_of_mem_scan hrules hread (by simp) ht hk
  obtain ⟨body, flags, hraw, hbody, hne, hflags⟩ := Pattern.body_of_regex hmatch
  let re : RegexLiteral := ⟨String.ofList body, String.ofList flags⟩
  have htext : t.raw.toList = re.text.toList := by simp [re, RegexLiteral.text, hraw]
  have hslash : '/' ∉ re.flags.toList := by
    rw [String.toList_ofList]
    exact fun hmem => absurd (hflags '/' hmem) (by decide)
  refine ⟨re, htext ▸ RegexLiteral.ofText?_text hslash, ?_, ?_, ?_⟩
  · rwa [String.toList_ofList]
  · simpa [re] using hne
  · rwa [String.toList_ofList]

/-- A literal that is read has the text it is read from, and is read back from its text if no slash
is among its flags. A token for a regular expression has a literal for its value, with the text of the
token, flags of the known ones and a pattern, not empty, where a backslash stands before every slash. -/
theorem regex_literal_keeps_text :
    (∀ (raw : String) (re : RegexLiteral), RegexLiteral.ofText? raw.toList = some re →
      re.text = raw) ∧
    (∀ pattern flags : String, '/' ∉ flags.toList →
      RegexLiteral.ofText? (RegexLiteral.text ⟨pattern, flags⟩).toList = some ⟨pattern, flags⟩) ∧
    ∀ (text : String), ∀ t ∈ Lexicon.standard.scan text, t.kind = .regex →
      ∃ re : RegexLiteral, t.value = some (.regex re) ∧ (Value.regex re).display = t.raw ∧
        (∀ c ∈ re.flags.toList, c ∈ ['g', 'i', 'm', 's', 'u', 'y']) ∧ re.pattern ≠ "" ∧
        ∀ before after, re.pattern.toList = before ++ '/' :: after →
          before.getLast? = some '\\' := by
  have hkeeps : ∀ (raw : String) (re : RegexLiteral), RegexLiteral.ofText? raw.toList = some re →
      re.text = raw :=
    fun raw re h => (RegexLiteral.text_of_ofText? h).trans String.ofList_toList
  refine ⟨hkeeps, fun pattern flags h => RegexLiteral.ofText?_text h, fun text t ht hk => ?_⟩
  obtain ⟨re, hread, hbody, hne, hflags⟩ := Lexicon.regex_of_mem_scan ht hk
  refine ⟨re, ?_, hkeeps t.raw re hread, hflags, hne, fun before after hsplit => ?_⟩
  · rw [Lexicon.value_of_mem_scan ht, hk, Literal.value?, hread]
  · exact hbody.getLast?_before (by decide) hsplit

/-- A slash and a backslash, both escaped, before the slash that closes the literal. -/
theorem regex_literal_keeps_text_escaped :
    let raw := r"/a\/\\/gi"
    let re : RegexLiteral := ⟨r"a\/\\", "gi"⟩
    (RegexLiteral.ofText? raw.toList = some re ∧ re.text = raw) ∧
      ('/' ∉ "gi".toList ∧ RegexLiteral.ofText? re.text.toList = some re) ∧
      ∃ t ∈ Lexicon.standard.scan raw, t.kind = .regex ∧ t.value = some (.regex re) := by
  intro raw re
  obtain ⟨hkeeps, hback, hlexed⟩ := regex_literal_keeps_text
  have hread : RegexLiteral.ofText? raw.toList = some re := by decide
  have hflags : '/' ∉ "gi".toList := by decide
  have hscan : (Lexicon.standard.scan raw).map (fun t => (t.kind, t.raw)) = [(.regex, raw)] := by
    decide +kernel
  obtain ⟨t, ht, hfound⟩ := List.mem_map.mp (hscan ▸ List.mem_singleton_self _)
  obtain ⟨hk, hraw⟩ := Prod.mk.inj hfound
  obtain ⟨re', hvalue, hdisplay, hknown, _⟩ := hlexed raw t ht hk
  have hslash : '/' ∉ re'.flags.toList := fun hmem => absurd (hknown '/' hmem) (by decide)
  have hre : re' = re :=
    (RegexLiteral.text_inj hslash hflags).mp
      ((hdisplay.trans hraw).trans (hkeeps raw re hread).symm)
  exact ⟨⟨hread, hkeeps raw re hread⟩, ⟨hflags, hback _ _ hflags⟩, t, ht, hk, hre ▸ hvalue⟩

end Verdict
