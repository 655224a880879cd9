import Verdict.Call.Methods
import Verdict.Proofs.Pattern.Segments
import Verdict.Proofs.Text.Substring

namespace Verdict

theorem Value.elementTexts_strings (xs : List String) :
    elementTexts (xs.map .string) = xs := by
  induction xs with
  | nil => rfl
  | cons x xs ih => rw [List.map_cons, elementTexts, ih]; rfl

namespace Method

variable {s : String} {separator : Value} {parts : List (List Char)}

/-- The text that `join` puts between two pieces. -/
def glue : Value → List Char
  | .undefined => [',']
  | v => v.text.toList

theorem map_stringOf (parts : List (List Char)) :
    parts.map stringOf = (parts.map String.ofList).map .string := by
  simp [stringOf]

theorem join_pieces (parts : List (List Char)) (separator : Value) :
    join (some (.array (parts.map stringOf))) [separator] =
      .ok (stringOf ((glue separator).intercalate parts)) := by
  have htext : ∀ between : String, Value.string (between.intercalate
      (Value.elementTexts (parts.map stringOf))) = stringOf (between.toList.intercalate parts) := by
    intro between
    rw [map_stringOf, Value.elementTexts_strings, stringOf, Value.string.injEq,
      ← String.toList_inj, String.toList_intercalate, String.toList_ofList, List.map_map]
    simp [Function.comp_def]
  cases separator <;> exact congrArg Except.ok (htext _)

theorem split_eq (s : String) (separator : Value) : split (some (.string s)) [separator] =
    (splitPieces s.toList separator).map fun parts => .array (parts.map stringOf) := by
  cases h : splitPieces s.toList separator <;>
    simp [split, stringReceiver, argument, limitPieces, h, bind, Except.bind, pure, Except.pure,
      Except.map]

/-- Whatever a separator is but a regular expression, the pieces between its occurrences give the text
again. -/
theorem splitPieces_intercalate (s : List Char) (h : ∀ re, separator ≠ .regex re) :
    ∃ parts, splitPieces s separator = .ok parts ∧ (glue separator).intercalate parts = s := by
  have hmark : ∀ mark : List Char, mark.intercalate
      (if mark.isEmpty then s.map fun c => [c] else pieces mark s) = s := by
    intro mark
    split
    next hempty =>
      rw [List.isEmpty_iff.mp hempty]
      exact intercalate_characters
    next => exact intercalate_pieces
  cases separator with
  | undefined => exact ⟨[s], rfl, List.intercalate_singleton⟩
  | regex re => exact absurd rfl (h re)
  | _ => exact ⟨_, rfl, hmark _⟩

/-- Joining undoes splitting, and splitting undoes joining with a character that is in no piece. -/
theorem split_join_inverse :
    (∀ (s : String) (separator : Value), (∀ re, separator ≠ .regex re) →
      ∃ parts, split (some (.string s)) [separator] = .ok parts ∧
        join (some parts) [separator] = .ok (.string s)) ∧
    ∀ (xs : List String) (c : Char), xs ≠ [] → (∀ x ∈ xs, c ∉ x.toList) →
      ∃ joined, join (some (.array (xs.map .string))) [.string (.singleton c)] = .ok joined ∧
        split (some joined) [.string (.singleton c)] = .ok (.array (xs.map .string)) := by
  refine ⟨fun s separator h => ?_, fun xs c hne hxs => ?_⟩
  · obtain ⟨parts, hparts, hs⟩ := splitPieces_intercalate s.toList h
    refine ⟨.array (parts.map stringOf), by rw [split_eq, hparts]; rfl, ?_⟩
    rw [join_pieces, hs, stringOf, String.ofList_toList]
  · have hpieces : xs.map .string = (xs.map String.toList).map stringOf := by
      simp [stringOf]
    have hglue : glue (.string (.singleton c)) = [c] := String.toList_singleton c
    refine ⟨stringOf ([c].intercalate (xs.map String.toList)), ?_, ?_⟩
    · rw [hpieces, join_pieces, hglue]
    · have hsplit : splitPieces ([c].intercalate (xs.map String.toList))
          (.string (.singleton c)) = .ok (xs.map String.toList) := by
        have hparts : pieces [c] ([c].intercalate (xs.map String.toList)) = xs.map String.toList :=
          pieces_intercalate (by simpa using hne) (by simpa using hxs)
        simp [splitPieces, Value.text, hparts]
      rw [stringOf, split_eq, String.toList_ofList, hsplit, hpieces]
      rfl

theorem split_join_inverse_overlapping :
    ((∀ re, Value.string "aa" ≠ .regex re) ∧ ∃ parts,
      split (some (.string "aaab")) [.string "aa"] = .ok parts ∧
        join (some parts) [.string "aa"] = .ok (.string "aaab")) ∧
    (["", "a", ""] ≠ [] ∧ ∀ x ∈ ["", "a", ""], ',' ∉ x.toList) ∧
      ∃ joined, join (some (.array (["", "a", ""].map .string))) [.string (.singleton ',')] =
          .ok joined ∧
        split (some joined) [.string (.singleton ',')] = .ok (.array (["", "a", ""].map .string)) :=
  ⟨⟨nofun, split_join_inverse.1 "aaab" (.string "aa") nofun⟩, ⟨by decide, by decide⟩,
    split_join_inverse.2 ["", "a", ""] ',' (by decide) (by decide)⟩

/-- To split at the matches of a global regular expression and join the pieces with a text is to
replace the matches by the text. -/
theorem split_join_eq_replace {literal : RegexLiteral} {re : Regex}
    (hre : literal.compile = .ok re) (hglobal : literal.isGlobal = true) {x : String}
    (hx : '$' ∉ x.toList) (s : String) :
    ∃ parts result, split (some (.string s)) [.regex literal] = .ok parts ∧
      join (some parts) [.string x] = .ok result ∧
      replace (some (.string s)) [.regex literal, .string x] = .ok result := by
  have hpieces : splitPieces s.toList (.regex literal) = .ok (re.split s.toList) := by
    rw [splitPieces, hre]
    rfl
  have hglue : glue (.string x) = x.toList := rfl
  refine ⟨.array ((re.split s.toList).map stringOf), stringOf (re.replaceBy true x.toList s.toList),
    ?_, ?_, ?_⟩
  · rw [split_eq, hpieces]
    rfl
  · rw [join_pieces, hglue, re.intercalate_split hx]
  · simp [replace, stringReceiver, argument, Value.text, hre, hglobal, bind, Except.bind, pure,
      Except.pure]

theorem split_join_eq_replace_group :
    (⟨"(a)|b*", "g"⟩ : RegexLiteral).compile = .ok ⟨.alt (.group 1 (.one (.char 'a')))
        (.loop 0 none true (.one (.char 'b'))), 2, []⟩ ∧
      (⟨"(a)|b*", "g"⟩ : RegexLiteral).isGlobal = true ∧ '$' ∉ "-".toList ∧
      ∃ parts result, split (some (.string "cabbé")) [.regex ⟨"(a)|b*", "g"⟩] = .ok parts ∧
        join (some parts) [.string "-"] = .ok result ∧
        replace (some (.string "cabbé")) [.regex ⟨"(a)|b*", "g"⟩, .string "-"] = .ok result :=
  ⟨rfl, rfl, by decide, split_join_eq_replace rfl rfl (by decide) "cabbé"⟩

end Method

end Verdict
