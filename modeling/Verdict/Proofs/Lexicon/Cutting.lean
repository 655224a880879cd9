import Verdict.Lexicon.Scan
import Verdict.Lexicon.Standard
import Verdict.Proofs.Lexicon.Order
import Verdict.Proofs.Pattern.Matching

namespace Verdict

theorem byteLength_eq (s : List Char) : byteLength s = (String.ofList s).utf8ByteSize := by
  have hfold : ∀ n, s.foldl (fun n c => n + c.utf8Size) n = n + (String.ofList s).utf8ByteSize := by
    induction s with
    | nil => simp
    | cons c s ih =>
      intro n
      rw [List.foldl_cons, ih]
      simp [Nat.add_assoc]
  rw [byteLength, hfold, Nat.zero_add]

/-- The place after tokens that follow one another from a place. -/
def Location.afterAll (here : Location) (tokens : List Token) : Location :=
  tokens.foldl (fun here t => here.after (t.kind == .newline) t.raw.toList) here

/-- The number of bytes up to the end of a token. -/
def Token.endOffset (t : Token) : Nat :=
  t.location.offset + t.raw.utf8ByteSize

/-- The number of bytes before the line that these tokens end in: those up to the end of the last
newline token. -/
def lineStart (tokens : List Token) : Nat :=
  ((tokens.reverse.find? (·.kind == .newline)).map Token.endOffset).getD 0

namespace Lexicon

variable {lex : Lexicon} {here : Location} {s : List Char} {kind : TokenKind} {n : Nat}
  {tokens before after : List Token} {t : Token}

/-- A text is cut into tokens, the first of which begins at a place. -/
inductive Cuts (lex : Lexicon) : Location → List Char → List Token → Prop
  | done {here : Location} : lex.Cuts here [] []
  | token {here : Location} {s : List Char} {kind : TokenKind} {n : Nat} {tokens : List Token} :
    s ≠ [] → lex.firstToken s s.length = (kind, n) →
    lex.Cuts (here.after (kind == .newline) (s.take n)) (s.drop n) tokens →
    lex.Cuts here s (makeToken kind (s.take n) here :: tokens)

/-- The text `m` before the text `rest` is the first token, of this kind. -/
def Begins (lex : Lexicon) (kind : TokenKind) (m rest : List Char) : Prop :=
  lex.firstToken (m ++ rest) (m ++ rest).length = (kind, m.length)

/-- Unless no rule takes anything, a rule gives the first token. -/
theorem Begins.matchPrefix?_eq {m rest : List Char} (h : lex.Begins kind m rest)
    (hkind : kind ≠ .unknown) :
    lex.matchPrefix? (m ++ rest) (m ++ rest).length = some (kind, m.length) := by
  unfold Begins firstToken at h
  cases hmatch : lex.matchPrefix? (m ++ rest) (m ++ rest).length with
  | none =>
    rw [hmatch] at h
    exact absurd (congrArg Prod.fst h).symm hkind
  | some found =>
    rw [hmatch] at h
    exact congrArg some h

/-- The first token of a text that is not empty is not empty, and it does not reach beyond the text. -/
theorem firstToken_bounds (hs : s ≠ []) (h : lex.firstToken s s.length = (kind, n)) :
    0 < n ∧ n ≤ s.length := by
  have hlength : 0 < s.length := List.length_pos_iff.mpr hs
  unfold firstToken at h
  cases hmatch : lex.matchPrefix? s s.length with
  | none =>
    rw [hmatch] at h
    cases h
    omega
  | some found =>
    rw [hmatch] at h
    cases h
    obtain ⟨_, rule, _, _, _, ⟨hend, hpos⟩, _⟩ := matchPrefix?_eq_some_iff.mp hmatch
    obtain ⟨gap, m, rest, hs', hn, _⟩ := Regex.matchEnd?_eq_some hend
    have hle := congrArg List.length hs'
    rw [List.length_append] at hle
    omega

theorem scanFrom_cuts {fuel : Nat} (hfuel : s.length ≤ fuel) (here : Location)
    (done : List Token) :
    ∃ tokens, lex.scanFrom fuel here s.length s done = done.reverse ++ tokens ∧
      lex.Cuts here s tokens := by
  induction fuel generalizing s here done with
  | zero =>
    obtain rfl : s = [] := List.length_eq_zero_iff.mp (by omega)
    exact ⟨[], by simp [scanFrom], .done⟩
  | succ fuel ih =>
    cases s with
    | nil => exact ⟨[], by simp [scanFrom], .done⟩
    | cons c rest =>
      obtain ⟨⟨kind, n⟩, hfirst⟩ : ∃ first, lex.firstToken (c :: rest) (c :: rest).length = first :=
        ⟨_, rfl⟩
      have hs : c :: rest ≠ [] := List.cons_ne_nil c rest
      obtain ⟨hpos, hle⟩ := firstToken_bounds hs hfirst
      have hdrop : ((c :: rest).drop n).length = (c :: rest).length - n := List.length_drop
      have hfuel' : ((c :: rest).drop n).length ≤ fuel := by omega
      obtain ⟨tokens, hscan, hcuts⟩ := ih hfuel'
        (here.after (kind == .newline) ((c :: rest).take n))
        (makeToken kind ((c :: rest).take n) here :: done)
      refine ⟨makeToken kind ((c :: rest).take n) here :: tokens, ?_, .token hs hfirst hcuts⟩
      rw [scanFrom, hfirst]
      · rw [hdrop] at hscan
        simpa using hscan
      · exact hs

theorem scan_cuts (lex : Lexicon) (text : String) :
    lex.Cuts .start text.toList (lex.scan text) := by
  obtain ⟨tokens, hscan, hcuts⟩ := lex.scanFrom_cuts (Nat.le_refl text.toList.length) .start []
  have htokens : lex.scan text = tokens := by simpa [scan] using hscan
  rwa [htokens]

namespace Cuts

/-- A token is the first one of the text from its place on. -/
theorem begins_of_mem (h : lex.Cuts here s tokens) (ht : t ∈ tokens) :
    ∃ rest, lex.Begins t.kind t.raw.toList rest := by
  induction h with
  | done => cases ht
  | @token here s kind n tokens hs hfirst _ ih =>
    rcases List.mem_cons.mp ht with rfl | ht
    · obtain ⟨_, hle⟩ := firstToken_bounds hs hfirst
      refine ⟨s.drop n, ?_⟩
      have hlength : (s.take n).length = n := List.length_take_of_le hle
      rw [makeToken, String.toList_ofList, Begins, List.take_append_drop, hfirst, hlength]
    · exact ih ht

theorem value_of_mem (h : lex.Cuts here s tokens) (ht : t ∈ tokens) :
    t.value = Literal.value? t.kind t.raw := by
  induction h with
  | done => cases ht
  | token _ _ _ ih =>
    rcases List.mem_cons.mp ht with rfl | ht
    · rfl
    · exact ih ht

theorem raw_ne_empty (h : lex.Cuts here s tokens) (ht : t ∈ tokens) : t.raw ≠ "" := by
  induction h with
  | done => cases ht
  | @token here s kind n tokens hs hfirst _ ih =>
    rcases List.mem_cons.mp ht with rfl | ht
    · obtain ⟨hpos, hle⟩ := firstToken_bounds hs hfirst
      intro hempty
      have htake : s.take n = [] := by simpa [makeToken] using hempty
      simp [hs] at htake
      omega
    · exact ih ht

theorem join_raw (h : lex.Cuts here s tokens) : String.join (tokens.map Token.raw) = .ofList s := by
  induction h with
  | done => rfl
  | token _ _ _ ih =>
    rw [List.map_cons, String.join_cons, ih, makeToken, ← String.ofList_append,
      List.take_append_drop]

theorem location_eq (h : lex.Cuts here s tokens) (htokens : tokens = before ++ t :: after) :
    t.location = here.afterAll before := by
  induction h generalizing before with
  | done => simp at htokens
  | token _ _ _ ih =>
    cases before with
    | nil =>
      cases htokens
      rfl
    | cons u before =>
      obtain ⟨rfl, hrest⟩ := List.cons.inj htokens
      rw [ih hrest]
      simp [Location.afterAll, makeToken]

end Cuts

/-- A newline token of a lexicon ends one line, and nothing else does it end. -/
def EndsOneLine (lex : Lexicon) : Prop :=
  ∀ s n, lex.matchPrefix? s s.length = some (.newline, n) → (s.take n).count '\n' = 1

theorem Cuts.count_newline (hlex : lex.EndsOneLine) (h : lex.Cuts here s tokens)
    (ht : t ∈ tokens) (hk : t.kind = .newline) : t.raw.toList.count '\n' = 1 := by
  obtain ⟨rest, hbegins⟩ := h.begins_of_mem ht
  rw [hk] at hbegins
  have hcount := hlex _ _ (hbegins.matchPrefix?_eq (by simp))
  rwa [List.take_left] at hcount

/-- The tokens of a text carry what their text says. -/
theorem value_of_mem_scan {text : String} (ht : t ∈ lex.scan text) :
    t.value = Literal.value? t.kind t.raw :=
  (lex.scan_cuts text).value_of_mem ht

end Lexicon

namespace Location

variable {tokens : List Token}

theorem afterAll_concat (here : Location) (tokens : List Token) (t : Token) :
    here.afterAll (tokens ++ [t]) =
      (here.afterAll tokens).after (t.kind == .newline) t.raw.toList := by
  simp [afterAll]

theorem offset_after (here : Location) (newline : Bool) (raw : String) :
    (here.after newline raw.toList).offset = here.offset + raw.utf8ByteSize := by
  cases newline <;> simp [after, byteLength_eq]

theorem offset_afterAll (here : Location) (tokens : List Token) :
    (here.afterAll tokens).offset =
      here.offset + (String.join (tokens.map Token.raw)).utf8ByteSize := by
  induction tokens generalizing here with
  | nil => rfl
  | cons t tokens ih =>
    change ((here.after _ t.raw.toList).afterAll tokens).offset = _
    rw [ih, offset_after, List.map_cons, String.join_cons, String.utf8ByteSize_append,
      Nat.add_assoc]

theorem line_afterAll (here : Location)
    (h : ∀ t ∈ tokens, t.kind = .newline → t.raw.toList.count '\n' = 1) :
    (here.afterAll tokens).line =
      here.line + (String.join (tokens.map Token.raw)).toList.count '\n' := by
  induction tokens generalizing here with
  | nil => rfl
  | cons t tokens ih =>
    have hline : (here.after (t.kind == .newline) t.raw.toList).line =
        here.line + t.raw.toList.count '\n' := by
      by_cases hk : t.kind = .newline
      · simp [after, hk, h t List.mem_cons_self hk]
      · simp [after, hk]
    change ((here.after _ t.raw.toList).afterAll tokens).line = _
    rw [ih _ fun u hu => h u (List.mem_cons_of_mem t hu), hline, List.map_cons, String.join_cons,
      String.toList_append, List.count_append, Nat.add_assoc]

/-- Tokens that stand where those before them end are counted from the end of the last newline. -/
theorem position_afterAll
    (h : ∀ before t after, tokens = before ++ t :: after → t.location = start.afterAll before) :
    (start.afterAll tokens).position + lineStart tokens = (start.afterAll tokens).offset := by
  induction tokens using List.reverseRecOn with
  | nil => rfl
  | append_singleton tokens t ih =>
    have hprefix := ih fun before u after htokens =>
      h before u (after ++ [t]) (by simp [htokens])
    have ht := h tokens t [] rfl
    rw [afterAll_concat]
    by_cases hk : t.kind = .newline
    · simp [after, lineStart, hk, Token.endOffset, ht, byteLength_eq]
    · have hstart : lineStart (tokens ++ [t]) = lineStart tokens := by
        simp [lineStart, hk]
      simp only [after, hk, beq_iff_eq, if_false, hstart]
      omega

end Location

end Verdict
