import Verdict.Proofs.Lexicon.Patterns

namespace Verdict

namespace Pattern

/-- A character of a string, or a backslash with what it takes the meaning of. -/
def element (quote : Char) : Pattern :=
  .alt (.seq (.one (.char '\\')) (.one (.compl (.char '\n'))))
    (.one (.compl (.union (.char quote) (.char '\\'))))

def quoted (quote : Char) : Pattern :=
  .seq (.one (.char quote)) (.seq (.loop 0 none true (element quote)) (.one (.char quote)))

def string : Pattern := .alt (quoted '"') (quoted '\'')

end Pattern

/-- The texts that can stand between two of these quotes. -/
inductive Quotable (quote : Char) : List Char → Prop
  | nil : Quotable quote []
  | plain {c : Char} {m : List Char} :
    c ≠ quote → c ≠ '\\' → Quotable quote m → Quotable quote (c :: m)
  | escaped {c : Char} {m : List Char} :
    c ≠ '\n' → Quotable quote m → Quotable quote ('\\' :: c :: m)

namespace Quotable

variable {quote : Char} {m n after : List Char} {before : Option Char}

theorem append (hm : Quotable quote m) (hn : Quotable quote n) : Quotable quote (m ++ n) := by
  induction hm with
  | nil => exact hn
  | plain hquote hslash _ ih => exact .plain hquote hslash ih
  | escaped hline _ ih => exact .escaped hline ih

theorem of_plain (hquote : quote ∉ m) (hslash : '\\' ∉ m) : Quotable quote m := by
  induction m with
  | nil => exact .nil
  | cons c m ih =>
    rw [List.mem_cons, not_or] at hquote hslash
    exact .plain (Ne.symm hquote.1) (Ne.symm hslash.1) (ih hquote.2 hslash.2)

theorem append_plain (hquote : quote ∉ m) (hslash : '\\' ∉ m) (hn : Quotable quote n) :
    Quotable quote (m ++ n) :=
  (of_plain hquote hslash).append hn

open Pattern

theorem repeats (hquote : quote ≠ '\\') (h : Quotable quote m) :
    (element quote).Repeats before m (quote :: after) := by
  induction h generalizing before with
  | nil => exact .stop_of_opens fun c hc => by cases hc; simp [opens, nullable, element, CharSet.contains, hquote]
  | @plain c m hc hslash _ ih =>
    refine .pass (m := [c]) (List.cons_ne_nil c []) (.right ?_ (.one ?_)) ih
    · exact not_matches_of_opens rfl fun d hd => by cases hd; simp [opens, nullable, hslash]
    · simp [CharSet.contains, hc, hslash]
  | @escaped c m hc _ ih =>
    refine .pass (m := ['\\', c]) (List.cons_ne_nil _ _) (.left ?_) ih
    exact .seq (m := ['\\']) (.one rfl) (.one (by simp [CharSet.contains, hc]))

theorem prefers_quoted (hquote : quote ≠ '\\') (h : Quotable quote m) :
    (Pattern.quoted quote).Prefers before (quote :: (m ++ [quote])) after :=
  .seq (m := [quote]) (.one (by simp)) (.seq (.many rfl (h.repeats hquote)) (.one (by simp)))

theorem prefers_string (hquote : quote = '"' ∨ quote = '\'') (h : Quotable quote m) :
    string.Prefers before (quote :: (m ++ [quote])) after := by
  rcases hquote with rfl | rfl
  · exact .left (h.prefers_quoted (by decide))
  · refine .right ?_ (h.prefers_quoted (by decide))
    exact not_matches_of_opens rfl fun c hc => by cases hc; rfl

end Quotable

/-- A string begins and ends with the same quote. -/
theorem Pattern.quote_of_string {before : Option Char} {m after : List Char}
    (h : string.Matches before m after) :
    ∃ quote body, (quote = '"' ∨ quote = '\'') ∧ m = quote :: (body ++ [quote]) := by
  have hquoted : ∀ quote, (quoted quote).Matches before m after →
      ∃ body, m = quote :: (body ++ [quote]) := by
    intro quote h
    obtain ⟨first, x, rfl, hfirst, hx⟩ := matches_seq_iff.mp h
    obtain ⟨body, last, rfl, _, hlast⟩ := matches_seq_iff.mp hx
    obtain ⟨c, rfl, hc⟩ := matches_one_iff.mp hfirst
    obtain ⟨d, rfl, hd⟩ := matches_one_iff.mp hlast
    obtain rfl : c = quote := by simpa using hc
    obtain rfl : d = c := by simpa using hd
    exact ⟨body, rfl⟩
  rcases matches_alt_iff.mp h with hdouble | hsingle
  · obtain ⟨body, hbody⟩ := hquoted '"' hdouble
    exact ⟨'"', body, .inl rfl, hbody⟩
  · obtain ⟨body, hbody⟩ := hquoted '\'' hsingle
    exact ⟨'\'', body, .inr rfl, hbody⟩

namespace Lexicon

/-- Nothing but a string begins with a quote. -/
theorem candidates_quote : ['"', '\''].map standard.candidates =
    List.replicate 2 [(.string, Pattern.string.atStart)] := by
  rw [candidates_standard]
  decide +kernel

theorem begins_string {quote : Char} (hquote : quote = '"' ∨ quote = '\'') {m rest : List Char}
    (h : Quotable quote m) : standard.Begins .string (quote :: (m ++ [quote])) rest := by
  have hstring := List.map_eq_replicate_iff.mp candidates_quote quote (by simpa using hquote)
  exact begins_of_candidates anchored_standard [] hstring (fun _ hq => absurd hq List.not_mem_nil)
    (h.prefers_string hquote).atStart

theorem quote_of_mem_scan {text : String} {t : Token} (ht : t ∈ standard.scan text)
    (hk : t.kind = .string) :
    ∃ quote body, (quote = '"' ∨ quote = '\'') ∧ t.raw.toList = quote :: (body ++ [quote]) := by
  have hrules : ∀ call ∈ standardRules, call.1 = .string →
      call.2.1 = r#""(?:\\.|[^"\\])*"|'(?:\\.|[^'\\])*'"# := by
    decide
  have hread : Regex.read {} ("\\A(?:" ++ r#""(?:\\.|[^"\\])*"|'(?:\\.|[^'\\])*'"# ++ ")").toList =
      .ok ⟨Pattern.string.atStart, 1, []⟩ := rfl
  obtain ⟨rest, hmatch⟩ := matches_of_mem_scan hrules hread (by simp) ht hk
  exact Pattern.quote_of_string hmatch

end Lexicon

end Verdict
