import Verdict.Proofs.Lexicon.Quoted
import Verdict.Proofs.Literal.Escape

namespace Verdict

namespace Literal

variable {quote c : Char} {s w taken : List Char}

/-- The ways to write a character between two of these quotes. -/
inductive CharWritten (quote : Char) : Char → List Char → Prop
  | plain {c : Char} : c ≠ quote → c ≠ '\\' → CharWritten quote c [c]
  | escaped {c : Char} : c ∉ ['\n', 'n', 't', 'r', '0', 'u'] → CharWritten quote c ['\\', c]
  | control {x c : Char} : (x, c) ∈ controls → CharWritten quote c ['\\', x]
  | code {hex : List Char} {c : Char} : Names hex c → CharWritten quote c ('\\' :: 'u' :: hex)

/-- The ways to write a text, character by character. -/
inductive Written (quote : Char) : List Char → List Char → Prop
  | nil : Written quote [] []
  | cons {c : Char} {s w rest : List Char} :
    CharWritten quote c w → Written quote s rest → Written quote (c :: s) (w ++ rest)

theorem control_spec : ∀ p ∈ controls, p.1 ≠ '\n' ∧ p.1 ≠ 'u' ∧ controls.lookup p.1 = some p.2 := by
  decide

theorem unescape_of_not_mem (h : c ∉ ['\n', 'n', 't', 'r', '0', 'u']) : unescape c = c := by
  unfold unescape
  split <;> simp_all

theorem CharWritten.settles (h : CharWritten quote c w) : Settles w [c] := by
  cases h with
  | plain _ hslash => exact .plain hslash
  | escaped hc =>
    have hu : c ≠ 'u' := fun heq => hc (by simp [heq])
    have hsettles := Settles.escape hu
    rwa [← unescape_eq, unescape_of_not_mem hc] at hsettles
  | @control x c hx =>
    obtain ⟨_, hu, hlookup⟩ := control_spec _ hx
    have hsettles := Settles.escape hu
    rwa [hlookup] at hsettles
  | code hname => exact .named (named?_eq_some_iff.mpr hname)

theorem CharWritten.quotable (hquote : quote = '"' ∨ quote = '\'') (h : CharWritten quote c w)
    {m : List Char} (hm : Quotable quote m) : Quotable quote (w ++ m) := by
  cases h with
  | plain hc hslash => exact .plain hc hslash hm
  | escaped hc => exact .escaped (fun heq => hc (by simp [heq])) hm
  | control hx => exact .escaped (control_spec _ hx).1 hm
  | code hname =>
    have hplain : quote ∉ _ := hname.not_mem (by rcases hquote with rfl | rfl <;> decide)
    exact .escaped (by decide) (.append_plain hplain (hname.not_mem (by decide)) hm)

theorem Written.unescape (h : Written quote s w) : unescapeFrom 0 w = s := by
  induction h with
  | nil => rfl
  | cons hc _ ih =>
    rw [hc.settles.unescape, ih]
    rfl

theorem Written.quotable (hquote : quote = '"' ∨ quote = '\'') (h : Written quote s w) :
    Quotable quote w := by
  induction h with
  | nil => exact .nil
  | cons hc _ ih => exact hc.quotable hquote ih

end Literal

open Literal

/-- Where a text begins with a quoted one, that is the first token. -/
theorem scan_quoted {quote : Char} (hquote : quote = '"' ∨ quote = '\'') {body : List Char}
    (h : Quotable quote body) (rest : List Char) :
    ∃ later, Lexicon.standard.scan (String.ofList (quote :: (body ++ quote :: rest))) =
      ⟨.string, String.ofList (quote :: (body ++ [quote])),
        some (.string (String.ofList (unescapeFrom 0 body))), .start⟩ :: later := by
  have hbegins : Lexicon.standard.Begins .string (quote :: (body ++ [quote])) rest :=
    Lexicon.begins_string hquote h
  obtain ⟨later, hscan⟩ := hbegins.scan_eq (List.cons_ne_nil _ _)
  have htext : quote :: (body ++ quote :: rest) = quote :: (body ++ [quote]) ++ rest := by simp
  refine ⟨later, ?_⟩
  rw [htext, hscan, Lexicon.makeToken, value?, String.toList_ofList, unquote_quoted hquote]

/-- A quoted text by itself is one token. -/
theorem mem_scan_quoted {quote : Char} (hquote : quote = '"' ∨ quote = '\'') {body : List Char}
    (h : Quotable quote body) :
    ∃ t ∈ Lexicon.standard.scan (String.ofList (quote :: (body ++ [quote]))), t.kind = .string ∧
      t.raw.toList = quote :: (body ++ [quote]) ∧
      t.value = some (.string (String.ofList (unescapeFrom 0 body))) := by
  obtain ⟨later, hscan⟩ := scan_quoted hquote h []
  exact ⟨_, hscan ▸ @List.mem_cons_self _ _ later, rfl, String.toList_ofList, rfl⟩

/-- A text that is written between two quotes is the value of the first token, which ends with the
second of them, whatever comes after it. -/
theorem scan_written_string (quote : Char) (hquote : quote = '"' ∨ quote = '\'') (s : String)
    (w rest : List Char) (h : Written quote s.toList w) :
    ∃ later, Lexicon.standard.scan (String.ofList (quote :: (w ++ quote :: rest))) =
      ⟨.string, String.ofList (quote :: (w ++ [quote])), some (.string s), .start⟩ :: later := by
  have hscan := scan_quoted hquote (h.quotable hquote) rest
  rwa [h.unescape, String.ofList_toList] at hscan

theorem scan_written_string_mixed :
    let w := "\\u00E9\\n\\\"\\\\'\\x".toList
    Written '"' "é\n\"\\'x".toList w ∧
      ∃ later, Lexicon.standard.scan (String.ofList ('"' :: (w ++ '"' :: "'\"".toList))) =
        ⟨.string, String.ofList ('"' :: (w ++ ['"'])), some (.string "é\n\"\\'x"), .start⟩ ::
          later := by
  intro w
  have hcode : Names "00E9".toList 'é' := ⟨by decide, by decide⟩
  have h : Written '"' "é\n\"\\'x".toList w :=
    .cons (.code hcode) (.cons (.control (x := 'n') (by decide)) (.cons (.escaped (by decide))
      (.cons (.escaped (by decide)) (.cons (.plain (by decide) (by decide))
        (.cons (.escaped (by decide)) .nil)))))
  exact ⟨h, scan_written_string '"' (.inl rfl) _ w _ h⟩

/-- The value of a string token is what the rule for escapes makes of the text between the quotes,
unless an escape is torn. Up to the first one that is torn the value is the same; from there on the
reader takes the characters after the `u` for a code, or as they are, where the rule reads on. -/
theorem string_token_value (text : String) (t : Token)
    (ht : t ∈ Lexicon.standard.scan text) (hk : t.kind = .string) :
    ∃ quote body, (quote = '"' ∨ quote = '\'') ∧ t.raw.toList = quote :: (body ++ [quote]) ∧
      t.value = some (.string (String.ofList (unquote t.raw.toList))) ∧
      (steady body = true → unquote t.raw.toList = decode body) ∧
      (steady body = false → ∃ before after, Tears body before after) := by
  obtain ⟨quote, body, hquote, hraw⟩ := Lexicon.quote_of_mem_scan ht hk
  refine ⟨quote, body, hquote, hraw, ?_, ?_⟩
  · rw [Lexicon.value_of_mem_scan ht, hk]
    rfl
  · rw [hraw, unquote_quoted hquote]
    rcases agrees_or_tears body with ⟨hsteady, hread⟩ | ⟨before, after, htears⟩
    · exact ⟨fun _ => hread, fun h => absurd hsteady (by simp [h])⟩
    · exact ⟨fun h => absurd htears.unsteady (by simp [h]), fun _ => ⟨before, after, htears⟩⟩

theorem string_token_value_malformed :
    let body := "\\u00e9\\ux".toList
    ∃ t ∈ Lexicon.standard.scan (String.ofList ('"' :: (body ++ ['"']))), t.kind = .string ∧
      steady body = true ∧ decode body = "éux".toList ∧ t.value = some (.string "éux") := by
  intro body
  have hbody : Quotable '"' body :=
    .escaped (by decide) (.append_plain (m := "00e9".toList) (by decide) (by decide)
      (.escaped (by decide) (.of_plain (by decide) (by decide))))
  obtain ⟨t, ht, hk, hraw, _⟩ := mem_scan_quoted (.inl rfl) hbody
  obtain ⟨quote, body', _, hraw', hvalue, hread, _⟩ := string_token_value _ t ht hk
  obtain rfl : body = body' :=
    (List.append_inj' (List.cons.inj (hraw.symm.trans hraw')).2 rfl).1
  have hsteady : steady body = true := by decide
  have hdecode : decode body = "éux".toList := by
    have hname : named? ['0', '0', 'e', '9'] = some 'é' ∧ named? ['x'] = none := ⟨rfl, rfl⟩
    simp [body, decode, hname]
  refine ⟨t, ht, hk, hsteady, hdecode, ?_⟩
  rw [hvalue, hread hsteady, hdecode]
  rfl

/-- An escape among the four characters is not resolved, and a plus sign or fewer digits are taken
for a code. -/
theorem string_token_misread :
    let misread (body read decoded : String) :=
      decode body.toList = decoded.toList ∧ read ≠ decoded ∧
        ∃ t ∈ Lexicon.standard.scan (String.ofList ('"' :: (body.toList ++ ['"']))),
          t.kind = .string ∧ t.raw.toList = '"' :: (body.toList ++ ['"']) ∧
            t.value = some (.string read)
    misread "\\u\\n123" "u\\n123" "u\n123" ∧ misread "\\u+041" "A" "u+041" ∧
      misread "\\u41" "A" "u41" := by
  intro misread
  have hnone : named? ['\\', 'n', '1', '2'] = none ∧ named? ['+', '0', '4', '1'] = none ∧
      named? ['4', '1'] = none := by
    decide
  refine ⟨⟨?_, by decide, mem_scan_quoted (.inl rfl) ?_⟩,
    ⟨?_, by decide, mem_scan_quoted (.inl rfl) ?_⟩, ⟨?_, by decide, mem_scan_quoted (.inl rfl) ?_⟩⟩
  · simp [decode, hnone, controls]
  · exact .escaped (by decide) (.escaped (by decide) (.of_plain (by decide) (by decide)))
  · simp [decode, hnone]
  · exact .escaped (by decide) (.of_plain (by decide) (by decide))
  · simp [decode, hnone]
  · exact .escaped (by decide) (.of_plain (by decide) (by decide))

end Verdict
