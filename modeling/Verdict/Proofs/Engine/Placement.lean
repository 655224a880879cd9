import Verdict.Engine
import Verdict.Proofs.Lexicon.Cutting
import Verdict.Proofs.Operands.Placement

namespace Verdict

namespace Lexicon

variable {lex : Lexicon} {text : String} {t : Token}

/-- A token starts where a character of the text does. -/
theorem offset_of_mem_scan (ht : t ∈ lex.scan text) :
    (String.Pos.Raw.mk t.location.offset).IsValid text ∧
      t.location.offset < text.utf8ByteSize := by
  have hcuts := lex.scan_cuts text
  obtain ⟨before, after, htokens⟩ := List.append_of_mem ht
  have htext : text =
      String.join (before.map Token.raw) ++ (t.raw ++ String.join (after.map Token.raw)) := by
    have hjoin : String.join ((lex.scan text).map Token.raw) = text := by
      rw [hcuts.join_raw, String.ofList_toList]
    rw [← hjoin, htokens, List.map_append, String.join_append, List.map_cons, String.join_cons]
  have hoffset : t.location.offset = (String.join (before.map Token.raw)).utf8ByteSize := by
    rw [hcuts.location_eq htokens, Location.offset_afterAll]
    exact Nat.zero_add _
  have hraw : t.raw.utf8ByteSize ≠ 0 := by
    intro hzero
    exact hcuts.raw_ne_empty ht (String.utf8ByteSize_eq_zero_iff.mp hzero)
  constructor
  · rw [String.Pos.Raw.isValid_iff_exists_append]
    refine ⟨_, _, htext, ?_⟩
    rw [hoffset]
    rfl
  · have hsize := congrArg String.utf8ByteSize htext
    rw [String.utf8ByteSize_append, String.utf8ByteSize_append] at hsize
    omega

end Lexicon

/-- A rule that is in error at a place is so at a token of its text, which starts at a character. -/
theorem located_error_at_token (engine : Engine) (text : String) (b : Bindings) (e : RuleError)
    (l : Location) (h : engine.formula text b = .error e) (hl : e.location? = some l) :
    (∃ t ∈ engine.tokens text, t.location = l) ∧
      (String.Pos.Raw.mk l.offset).IsValid text ∧ l.offset < text.utf8ByteSize := by
  have hplaced : e.Placed fun l => ∃ t ∈ engine.tokens text, t.location = l := by
    unfold Engine.formula at h
    split at h
    next =>
      cases h
      exact RuleError.placed_of_none rfl
    next =>
      have hoperands := Operands.ofTokens_placed (engine.scope b)
        (P := fun l => ∃ t ∈ engine.tokens text, t.location = l) fun t ht => ⟨t, ht, rfl⟩
      exact Formula.ofOperands_placed hoperands.1 hoperands.2 h
  obtain ⟨t, ht, rfl⟩ := hplaced l hl
  exact ⟨⟨t, ht, rfl⟩, Lexicon.offset_of_mem_scan ht⟩

/-- A call that fails inside two lists, on the second line. -/
theorem located_error_at_token_call :
    let engine : Engine := ⟨.ofRules [(.space, " ", 1), (.newline, "\n", 1), (.string, "'é'", 1),
      (.method, r"\.[a-z]+\(", 1), (.comparison .member, "in", 1), (.identifier, "[a-z]", 1),
      (.closeParen, r"\)", 1), (.openBracket, r"\[", 1), (.closeBracket, r"\]", 1)],
      .standard, .standard⟩
    let text := "'é' in [\n[x.join()]]"
    let b : Bindings := .ofList [("x", .string "a")]
    let e : RuleError := .badType (.call (.notAFunction "\"a\"" "join")) (some ⟨12, 2, 2⟩)
    engine.formula text b = .error e ∧ e.location? = some ⟨12, 2, 2⟩ ∧
      (∃ t ∈ engine.tokens text, t.location = ⟨12, 2, 2⟩) ∧
      (String.Pos.Raw.mk 12).IsValid text ∧ 12 < text.utf8ByteSize := by
  intro engine text b e
  have h : engine.formula text b = .error e := by
    subst engine text b e
    decide +kernel
  exact ⟨h, rfl, located_error_at_token engine text b e ⟨12, 2, 2⟩ h rfl⟩

end Verdict
