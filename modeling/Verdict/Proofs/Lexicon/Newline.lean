import Verdict.Proofs.Lexicon.Cutting

namespace Verdict

namespace Pattern

/-- The pattern of the rule for newline tokens. -/
def newline : Pattern :=
  .seq (.look .textStart) (.seq (.loop 0 (some 1) true (.one (.char '\r'))) (.one (.char '\n')))

theorem count_of_newline {before : Option Char} {m after : List Char}
    (h : newline.Matches before m after) : before = none ∧ m.count '\n' = 1 := by
  obtain ⟨start, line, rfl, hstart, hline⟩ := matches_seq_iff.mp h
  obtain ⟨rfl, hbefore⟩ := matches_look_iff.mp hstart
  obtain ⟨carriage, feed, rfl, hcarriage, hfeed⟩ := matches_seq_iff.mp hline
  obtain ⟨c, rfl, hc⟩ := matches_one_iff.mp hfeed
  obtain rfl : c = '\n' := by simpa using hc
  refine ⟨by simpa [Look.holds] using hbefore, ?_⟩
  rcases matches_optional_iff.mp hcarriage with rfl | hreturn
  · rfl
  · obtain ⟨d, rfl, hd⟩ := matches_one_iff.mp hreturn
    obtain rfl : d = '\r' := by simpa using hd
    rfl

end Pattern

namespace Lexicon

theorem read_newline :
    Regex.read {} ("\\A(?:" ++ r"\r?\n" ++ ")").toList = .ok ⟨.newline, 1, []⟩ :=
  rfl

theorem endsOneLine_standard {calls : List (TokenKind × String × Int)}
    (hcalls : ∀ call ∈ calls, call.1 ≠ .newline) :
    (standard.registerAll calls).EndsOneLine := by
  have hstandard : ∀ call ∈ standardRules, call.1 = .newline → call.2.1 = r"\r?\n" := by decide
  have hnewline : ∀ call ∈ standardRules ++ calls, call.1 = .newline → call.2.1 = r"\r?\n" := by
    intro call hcall hkind
    rcases List.mem_append.mp hcall with hold | hnew
    · exact hstandard call hold hkind
    · exact absurd hkind (hcalls call hnew)
  intro s n h
  rw [standard, ← registerAll_append] at h
  obtain ⟨before, rule, after, hrules, hkind, ⟨hend, _⟩, _⟩ := matchPrefix?_eq_some_iff.mp h
  have hmem : rule ∈ (empty.registerAll (standardRules ++ calls)).rules := by simp [hrules]
  obtain ⟨gap, m, rest, rfl, rfl, hmatch⟩ := Regex.matchEnd?_eq_some hend
  rw [regex_of_calls hnewline read_newline hmem hkind] at hmatch
  obtain ⟨hbefore, hcount⟩ := Pattern.count_of_newline hmatch
  obtain ⟨rfl, _⟩ := lastRead_eq_none_iff.mp hbefore
  simpa using hcount

end Lexicon

/-- Whatever rules of other kinds are added to the standard lexicon, cutting a text comes to an end,
no token is empty, and the tokens together are the text. A token stands after the bytes of those
before it, in the line that their line feeds lead to, and its position counts from the end of the
last newline token. -/
theorem scan_covers_text (calls : List (TokenKind × String × Int))
    (hcalls : ∀ call ∈ calls, call.1 ≠ .newline) (text : String) :
    let lex := Lexicon.standard.registerAll calls
    lex.Cuts .start text.toList (lex.scan text) ∧
      (∀ t ∈ lex.scan text, t.raw ≠ "") ∧
      String.join ((lex.scan text).map Token.raw) = text ∧
      ∀ before t after, lex.scan text = before ++ t :: after →
        let read := String.join (before.map Token.raw)
        (∃ rest, text = read ++ rest) ∧
          t.location.offset = read.utf8ByteSize ∧
          t.location.line = 1 + read.toList.count '\n' ∧
          t.location.position + lineStart before = t.location.offset := by
  intro lex
  have hcuts := lex.scan_cuts text
  have hjoin : String.join ((lex.scan text).map Token.raw) = text := by
    rw [hcuts.join_raw, String.ofList_toList]
  refine ⟨hcuts, fun t => hcuts.raw_ne_empty, hjoin, ?_⟩
  intro before t after htokens read
  have hlocated : ∀ before' u after', before = before' ++ u :: after' →
      u.location = Location.start.afterAll before' := by
    intro before' u after' hbefore
    have hu : lex.scan text = before' ++ u :: (after' ++ t :: after) := by simp [htokens, hbefore]
    exact hcuts.location_eq hu
  have hlines : ∀ u ∈ before, u.kind = .newline → u.raw.toList.count '\n' = 1 := by
    intro u hu
    exact hcuts.count_newline (Lexicon.endsOneLine_standard hcalls) (by simp [htokens, hu])
  have hread : ∃ rest, text = read ++ rest :=
    ⟨String.join ((t :: after).map Token.raw), by
      rw [← hjoin, htokens, List.map_append, String.join_append]⟩
  rw [hcuts.location_eq htokens]
  refine ⟨hread, ?_, Location.line_afterAll .start hlines, Location.position_afterAll hlocated⟩
  rw [Location.offset_afterAll]
  exact Nat.zero_add _

theorem scan_covers_text_across_lines :
    let calls : List (TokenKind × String × Int) := [(.comparison .equal, "a)|(?:b", 160)]
    let lex := Lexicon.standard.registerAll calls
    let text := "xb\n/*\n*/y"
    (∀ call ∈ calls, call.1 ≠ .newline) ∧
      (lex.scan text).map (fun t => (t.kind, t.raw, t.location)) =
        [(.comparison .equal, "xb", ⟨0, 0, 1⟩), (.newline, "\n", ⟨2, 2, 1⟩),
         (.comment, "/*\n*/", ⟨3, 0, 2⟩), (.identifier, "y", ⟨8, 5, 3⟩)] ∧
      String.join ((lex.scan text).map Token.raw) = text ∧
      ∀ before t after, lex.scan text = before ++ t :: after →
        t.location.position + lineStart before = t.location.offset := by
  intro calls lex text
  have hcalls : ∀ call ∈ calls, call.1 ≠ .newline := by
    subst calls
    decide
  have htokens : (lex.scan text).map (fun t => (t.kind, t.raw, t.location)) =
      [(.comparison .equal, "xb", ⟨0, 0, 1⟩), (.newline, "\n", ⟨2, 2, 1⟩),
       (.comment, "/*\n*/", ⟨3, 0, 2⟩), (.identifier, "y", ⟨8, 5, 3⟩)] := by
    subst lex calls text
    decide +kernel
  obtain ⟨_, _, hjoin, hplaces⟩ := scan_covers_text calls hcalls text
  exact ⟨hcalls, htokens, hjoin, fun before t after h => (hplaces before t after h).2.2.2⟩

end Verdict
