import Mathlib.Data.List.Basic
import Mathlib.Data.List.TakeDrop
import Verdict.Proofs.Number.Numeral
import Verdict.Token.Literal

namespace Verdict.Literal

/-- The four hexadecimal digits of a number below `16 ^ 4`, in lower case. -/
def codeDigits (n : Nat) : List Char :=
  [n / 4096 % 16, n / 256 % 16, n / 16 % 16, n % 16].map Nat.digitChar

/-- Four hexadecimal digits of either case that are the code point of a character. -/
def Names (hex : List Char) (c : Char) : Prop :=
  c.toNat < 65536 ∧ hex.map Char.toLower = codeDigits c.toNat

/-- The character that a text names. -/
def named? (hex : List Char) : Option Char :=
  if hex.length = 4 then
    (readHex? hex).bind fun n => if n.isValidChar then some (Char.ofNat n) else none
  else none

/-- The letters that stand for control characters behind a backslash. -/
def controls : List (Char × Char) := [('n', '\n'), ('t', '\t'), ('r', '\r'), ('0', '\x00')]

/-- What the text between two quotes stands for, from left to right. A backslash before a letter of
`controls` gives the control character, one before `u` and four digits that name a character gives
that character. Any other is dropped, and all that follows it is read on. -/
def decode : List Char → List Char
  | [] => []
  | '\\' :: 'u' :: rest =>
    match named? (rest.take 4) with
    | some c => c :: decode (rest.drop 4)
    | none => 'u' :: decode rest
  | '\\' :: c :: rest => (controls.lookup c).getD c :: decode rest
  | c :: rest => c :: decode rest
termination_by s => s.length

/-- Whether the characters that an escape takes along are read in another way than by the rule: an
escape begins among them, or they are read as a number but are not four digits. -/
def torn (taken : List Char) : Bool :=
  taken.contains '\\' || (named? taken).isNone && (escapedChar? taken).isSome

/-- Whether no escape of a text is torn. -/
def steady : List Char → Bool
  | '\\' :: 'u' :: rest => !torn (rest.take 4) && steady rest
  | '\\' :: _ :: rest => steady rest
  | _ :: rest => steady rest
  | [] => true

/-- What the reader makes of an escape with these characters after its `u`. -/
def readEscape (taken : List Char) : List Char :=
  match escapedChar? taken with
  | some c => [c]
  | none => 'u' :: taken

section Names

variable {hex : List Char} {c : Char}

theorem toNat_lt_of_digit? {d : Char} {k : Nat} (h : digit? 16 d = some k) : d.toNat < 103 := by
  simp only [digit?, Option.ite_none_right_eq_some] at h
  obtain ⟨hlt, _⟩ := h
  split at hlt
  next hdigit =>
    have hd := toNat_of_isDigit hdigit
    omega
  next =>
    split at hlt
    next =>
      have hlt : d.toNat - 97 + 10 < 16 := hlt
      omega
    next =>
      split at hlt
      next hupper =>
        have hhigh : d.toNat ≤ 90 := hupper.2
        omega
      next => omega

theorem toLower_of_digit? {d : Char} {k : Nat} (h : digit? 16 d = some k) :
    k < 16 ∧ d.toLower = Nat.digitChar k := by
  have hall : ∀ n < 103, ∀ k ∈ digit? 16 (Char.ofNat n),
      k < 16 ∧ (Char.ofNat n).toLower = Nat.digitChar k := by
    decide
  have hfound := hall d.toNat (toNat_lt_of_digit? h) k
  rw [Char.ofNat_toNat] at hfound
  exact hfound h

theorem digit?_of_toLower {d : Char} {k : Nat} (hk : k < 16) (h : d.toLower = Nat.digitChar k) :
    digit? 16 d = some k := by
  rcases toLower_cases d with ⟨hlow, hhigh, hlower⟩ | ⟨_, hlower⟩
  · have hletters : ∀ k < 16, 97 ≤ (Nat.digitChar k).toNat →
        digit? 16 (Char.ofNat ((Nat.digitChar k).toNat - 32)) = some k := by decide
    rw [h] at hlower
    have hfound := hletters k hk (by omega)
    rwa [hlower, Nat.add_sub_cancel, Char.ofNat_toNat] at hfound
  · have hall : ∀ k < 16, digit? 16 (Nat.digitChar k) = some k := by decide
    rw [← hlower, h, hall k hk]

theorem readHex?_eq_some_iff {a b c d : Char} {n : Nat} : readHex? [a, b, c, d] = some n ↔
    ∃ i j k l, digit? 16 a = some i ∧ digit? 16 b = some j ∧ digit? 16 c = some k ∧
      digit? 16 d = some l ∧ n = ((i * 16 + j) * 16 + k) * 16 + l := by
  simp only [readHex?, List.foldlM_cons, List.foldlM_nil, Option.bind_eq_bind,
    Option.bind_eq_some_iff, Option.map_eq_some_iff, Option.pure_def, Option.some_inj]
  constructor
  · rintro ⟨_, ⟨i, hi, rfl⟩, _, ⟨j, hj, rfl⟩, _, ⟨k, hk, rfl⟩, _, ⟨l, hl, rfl⟩, rfl⟩
    exact ⟨i, j, k, l, hi, hj, hk, hl, by omega⟩
  · rintro ⟨i, j, k, l, hi, hj, hk, hl, rfl⟩
    exact ⟨_, ⟨i, hi, rfl⟩, _, ⟨j, hj, rfl⟩, _, ⟨k, hk, rfl⟩, _, ⟨l, hl, rfl⟩, by omega⟩

theorem Names.length_eq (h : Names hex c) : hex.length = 4 := by
  rw [← List.length_map Char.toLower, h.2]
  rfl

theorem named?_eq_some_iff : named? hex = some c ↔ Names hex c := by
  simp only [named?, Option.ite_none_right_eq_some, Option.bind_eq_some_iff, Option.some_inj]
  constructor
  · rintro ⟨hlength, n, hread, hvalid, rfl⟩
    obtain ⟨a, b, c, d, rfl⟩ := List.length_eq_four.mp hlength
    obtain ⟨i, j, k, l, hi, hj, hk, hl, hn⟩ := readHex?_eq_some_iff.mp hread
    obtain ⟨hi, ha⟩ := toLower_of_digit? hi
    obtain ⟨hj, hb⟩ := toLower_of_digit? hj
    obtain ⟨hk, hc⟩ := toLower_of_digit? hk
    obtain ⟨hl, hd⟩ := toLower_of_digit? hl
    have hcode : (Char.ofNat n).toNat = n := by rw [Char.ofNat, dif_pos hvalid]; rfl
    have hdigits : n / 4096 % 16 = i ∧ n / 256 % 16 = j ∧ n / 16 % 16 = k ∧ n % 16 = l := by omega
    rw [Names, hcode, codeDigits, hdigits.1, hdigits.2.1, hdigits.2.2.1, hdigits.2.2.2]
    exact ⟨by omega, by simp [ha, hb, hc, hd]⟩
  · intro h
    have hlength := h.length_eq
    obtain ⟨hlt, hdigits⟩ := h
    obtain ⟨a, b, c', d, rfl⟩ := List.length_eq_four.mp hlength
    simp only [codeDigits, List.map_cons, List.map_nil, List.cons.injEq, and_true] at hdigits
    obtain ⟨ha, hb, hc, hd⟩ := hdigits
    have hsmall : ∀ n, n % 16 < 16 := fun n => Nat.mod_lt n (by decide)
    refine ⟨hlength, c.toNat, readHex?_eq_some_iff.mpr ⟨_, _, _, _, digit?_of_toLower (hsmall _) ha,
      digit?_of_toLower (hsmall _) hb, digit?_of_toLower (hsmall _) hc,
      digit?_of_toLower (hsmall _) hd, by omega⟩, c.valid, Char.ofNat_toNat c⟩

theorem mem_codeDigits {n : Nat} {d : Char} (h : d ∈ codeDigits n) :
    d ∈ "0123456789abcdef".toList := by
  have hall : ∀ k < 16, Nat.digitChar k ∈ "0123456789abcdef".toList := by decide
  obtain ⟨k, hk, rfl⟩ := List.mem_map.mp h
  have hsmall : k < 16 := by
    simp only [List.mem_cons, List.not_mem_nil, or_false] at hk
    omega
  exact hall k hsmall

/-- A character that is no digit in lower case has no place in the name of another. -/
theorem Names.not_mem (h : Names hex c) {d : Char}
    (hd : d.toLower ∉ "0123456789abcdef".toList) : d ∉ hex := by
  intro hmem
  have hlower := List.mem_map_of_mem (f := Char.toLower) hmem
  rw [h.2] at hlower
  exact hd (mem_codeDigits hlower)

theorem not_mem_of_named? (h : named? hex = some c) : '\\' ∉ hex :=
  (named?_eq_some_iff.mp h).not_mem (by decide)

theorem escapedChar?_of_named? (h : named? hex = some c) : escapedChar? hex = some c := by
  have hplus : '+' ∉ hex := (named?_eq_some_iff.mp h).not_mem (by decide)
  simp only [named?, Option.ite_none_right_eq_some] at h
  obtain ⟨hlength, hread⟩ := h
  have hdrop : dropPlus hex = hex := by
    unfold dropPlus
    split
    next => exact absurd List.mem_cons_self hplus
    next => rfl
  have hne : hex.isEmpty = false := by
    cases hex with
    | nil => cases hlength
    | cons d hex => rfl
  rwa [escapedChar?, readCode?, hdrop, hne, if_neg Bool.false_ne_true]

end Names

section Equations

variable {c : Char} {taken rest : List Char}

theorem unescape_eq (c : Char) : unescape c = (controls.lookup c).getD c := by
  unfold unescape
  split
  next => rfl
  next => rfl
  next => rfl
  next => rfl
  next hn ht hr hzero =>
    simp [controls, List.lookup_cons, beq_false_of_ne hn, beq_false_of_ne ht, beq_false_of_ne hr,
      beq_false_of_ne hzero]

theorem unescapeFrom_eq_drop (skip : Nat) (s : List Char) :
    unescapeFrom skip s = unescapeFrom 0 (s.drop skip) := by
  induction skip generalizing s with
  | zero => rfl
  | succ skip ih =>
    cases s with
    | nil => rfl
    | cons c s => exact ih s

theorem unescapeFrom_cons (hc : c ≠ '\\') (rest : List Char) :
    unescapeFrom 0 (c :: rest) = c :: unescapeFrom 0 rest :=
  unescapeFrom.eq_6 c rest hc

theorem unescapeFrom_escape (hc : c ≠ 'u') (rest : List Char) :
    unescapeFrom 0 ('\\' :: c :: rest) = unescape c :: unescapeFrom 0 rest := by
  rw [unescapeFrom.eq_5 c rest hc, unescapeFrom_eq_drop]
  rfl

theorem unescapeFrom_unicode (rest : List Char) :
    unescapeFrom 0 ('\\' :: 'u' :: rest) =
      readEscape (rest.take 4) ++ unescapeFrom 0 (rest.drop 4) := by
  have hskip : unescapeFrom ((rest.take 4).length + 1) ('u' :: rest) =
      unescapeFrom 0 (rest.drop 4) := by
    have hdrop := @List.drop_left _ (rest.take 4) (rest.drop 4)
    rw [List.take_append_drop] at hdrop
    rw [unescapeFrom_eq_drop, List.drop_succ_cons, hdrop]
  rw [unescapeFrom, readEscape, hskip]
  cases escapedChar? (rest.take 4) <;> rfl

theorem unescapeFrom_append (htaken : '\\' ∉ taken) (rest : List Char) :
    unescapeFrom 0 (taken ++ rest) = taken ++ unescapeFrom 0 rest := by
  induction taken with
  | nil => rfl
  | cons c taken ih =>
    rw [List.mem_cons, not_or] at htaken
    rw [List.cons_append, unescapeFrom_cons (Ne.symm htaken.1), ih htaken.2, List.cons_append]

theorem unescapeFrom_plain (htaken : '\\' ∉ taken) : unescapeFrom 0 taken = taken := by
  have hread := unescapeFrom_append htaken []
  rwa [List.append_nil, unescapeFrom, List.append_nil] at hread

theorem unquote_quoted {quote : Char} (hquote : quote = '"' ∨ quote = '\'') (body : List Char) :
    unquote (quote :: (body ++ [quote])) = unescapeFrom 0 body := by
  rcases hquote with rfl | rfl <;> simp [unquote, between?]

theorem decode_nil : decode [] = [] := by
  rw [decode]

theorem decode_cons (hc : c ≠ '\\') (rest : List Char) : decode (c :: rest) = c :: decode rest :=
  decode.eq_4 c rest (fun _ h => absurd h hc) fun _ _ h => absurd h hc

theorem decode_append (htaken : '\\' ∉ taken) (rest : List Char) :
    decode (taken ++ rest) = taken ++ decode rest := by
  induction taken with
  | nil => rfl
  | cons c taken ih =>
    rw [List.mem_cons, not_or] at htaken
    rw [List.cons_append, decode_cons (Ne.symm htaken.1), ih htaken.2, List.cons_append]

theorem steady_cons (hc : c ≠ '\\') (rest : List Char) : steady (c :: rest) = steady rest :=
  steady.eq_3 c rest (fun _ h => absurd h hc) fun _ _ h => absurd h hc

theorem steady_append (htaken : '\\' ∉ taken) (rest : List Char) :
    steady (taken ++ rest) = steady rest := by
  induction taken with
  | nil => rfl
  | cons c taken ih =>
    rw [List.mem_cons, not_or] at htaken
    rw [List.cons_append, steady_cons (Ne.symm htaken.1), ih htaken.2]

end Equations

section Reading

variable {s before after p out taken rest : List Char} {c : Char}

theorem not_mem_of_torn_eq_false (h : torn taken = false) : '\\' ∉ taken := by
  simp only [torn, Bool.or_eq_false_iff] at h
  simpa using h.1

theorem torn_of_named? (h : named? taken = some c) : torn taken = false := by
  simp [torn, h, not_mem_of_named? h]

/-- A malformed escape that is not torn costs its backslash and nothing else. -/
theorem unescapeFrom_malformed (h : named? (rest.take 4) = none)
    (htorn : torn (rest.take 4) = false) :
    unescapeFrom 0 ('\\' :: 'u' :: rest) = 'u' :: unescapeFrom 0 rest := by
  have hplain := not_mem_of_torn_eq_false htorn
  have hcode : escapedChar? (rest.take 4) = none := by simpa [torn, h, hplain] using htorn
  rw [unescapeFrom_unicode, readEscape, hcode, List.cons_append, ← unescapeFrom_append hplain,
    List.take_append_drop]

/-- A piece of a text that the reader and the rule take for the same characters, whatever follows. -/
structure Settles (p out : List Char) : Prop where
  steady : ∀ rest, steady (p ++ rest) = steady rest
  decode : ∀ rest, decode (p ++ rest) = out ++ decode rest
  unescape : ∀ rest, unescapeFrom 0 (p ++ rest) = out ++ unescapeFrom 0 rest

namespace Settles

theorem plain (hc : c ≠ '\\') : Settles [c] [c] :=
  ⟨steady_cons hc, decode_cons hc, unescapeFrom_cons hc⟩

theorem escape (hc : c ≠ 'u') : Settles ['\\', c] [(controls.lookup c).getD c] :=
  ⟨fun rest => steady.eq_2 c rest hc, fun rest => decode.eq_3 c rest hc, fun rest => by
    rw [← unescape_eq]
    exact unescapeFrom_escape hc rest⟩

theorem named (h : named? taken = some c) : Settles ('\\' :: 'u' :: taken) [c] := by
  have hlength := (named?_eq_some_iff.mp h).length_eq
  have htake : ∀ rest, (taken ++ rest).take 4 = taken := fun rest => List.take_left' hlength
  have hdrop : ∀ rest, (taken ++ rest).drop 4 = rest := fun rest => List.drop_left' hlength
  refine ⟨fun rest => ?_, fun rest => ?_, fun rest => ?_⟩
  · rw [List.cons_append, List.cons_append, Literal.steady, htake, torn_of_named? h,
      steady_append (not_mem_of_named? h)]
    rfl
  · rw [List.cons_append, List.cons_append, Literal.decode, htake, h, hdrop]
    rfl
  · rw [List.cons_append, List.cons_append, unescapeFrom_unicode, readEscape, htake,
      escapedChar?_of_named? h, hdrop]

theorem malformed (hlength : taken.length = 4) (h : named? taken = none)
    (htorn : torn taken = false) : Settles ('\\' :: 'u' :: taken) ('u' :: taken) := by
  have hplain := not_mem_of_torn_eq_false htorn
  have htake : ∀ rest, (taken ++ rest).take 4 = taken := fun rest => List.take_left' hlength
  refine ⟨fun rest => ?_, fun rest => ?_, fun rest => ?_⟩
  · rw [List.cons_append, List.cons_append, Literal.steady, htake, htorn, steady_append hplain]
    rfl
  · rw [List.cons_append, List.cons_append, Literal.decode, htake, h, decode_append hplain]
    rfl
  · rw [List.cons_append, List.cons_append, unescapeFrom_malformed (by rwa [htake])
      (by rwa [htake]), unescapeFrom_append hplain]
    rfl

end Settles

/-- The first escape of a text that is torn: the reader and the rule agree on what stands before it,
and part there. -/
structure Tears (s before rest : List Char) : Prop where
  text : s = before ++ '\\' :: 'u' :: rest
  steady : steady before = true
  unsteady : Literal.steady s = false
  torn : torn (rest.take 4) = true
  decode : decode s = decode before ++ 'u' :: decode rest
  unescape : unescapeFrom 0 s =
    Literal.decode before ++ (readEscape (rest.take 4) ++ unescapeFrom 0 (rest.drop 4))

theorem Settles.tears (h : Settles p out) (hs : Tears s before after) :
    Tears (p ++ s) (p ++ before) after where
  text := by rw [hs.text, List.append_assoc]
  steady := by rw [h.steady, hs.steady]
  unsteady := by rw [h.steady, hs.unsteady]
  torn := hs.torn
  decode := by rw [h.decode, h.decode, hs.decode, List.append_assoc]
  unescape := by rw [h.unescape, h.decode, hs.unescape, List.append_assoc]

theorem tears_here (h : torn (rest.take 4) = true) (hname : named? (rest.take 4) = none) :
    Tears ('\\' :: 'u' :: rest) [] rest where
  text := rfl
  steady := rfl
  unsteady := by rw [Literal.steady, h]; rfl
  torn := h
  decode := by rw [decode_nil, List.nil_append, Literal.decode, hname]
  unescape := by rw [unescapeFrom_unicode, decode_nil, List.nil_append]

/-- A text without a torn escape, that the reader reads by the rule. -/
def Agrees (s : List Char) : Prop := steady s = true ∧ unescapeFrom 0 s = decode s

theorem Settles.agrees (h : Settles p out) (hs : Agrees s) : Agrees (p ++ s) :=
  ⟨by rw [h.steady, hs.1], by rw [h.unescape, h.decode, hs.2]⟩

theorem agrees_plain (h : '\\' ∉ s) : Agrees s := by
  have hsteady := steady_append h []
  have hdecode := decode_append h []
  rw [List.append_nil] at hsteady hdecode
  rw [Agrees, hsteady, unescapeFrom_plain h, hdecode, decode_nil, List.append_nil]
  exact ⟨rfl, rfl⟩

theorem agrees_backslash : Agrees ['\\'] := by
  have hdecode : decode ['\\'] = '\\' :: decode [] :=
    decode.eq_4 '\\' [] (fun _ _ h => nomatch h) fun _ _ _ h => nomatch h
  refine ⟨rfl, ?_⟩
  rw [hdecode, decode_nil]
  rfl

/-- A malformed escape with fewer than four characters after it. -/
theorem agrees_unfinished (hlength : rest.length < 4) (h : named? (rest.take 4) = none)
    (htorn : torn (rest.take 4) = false) : Agrees ('\\' :: 'u' :: rest) := by
  have htake : rest.take 4 = rest := List.take_of_length_le (by omega)
  have hrest : Agrees rest := agrees_plain (htake ▸ not_mem_of_torn_eq_false htorn)
  refine ⟨?_, ?_⟩
  · rw [steady, htorn, hrest.1]
    rfl
  · rw [unescapeFrom_malformed h htorn, hrest.2, decode, h]

/-- How a text that is not empty begins: with a piece that both read for the same, or with a torn
escape, unless it is no more than an escape that its end cuts short. -/
theorem exists_settles (hs : s ≠ []) :
    (∃ p out rest, s = p ++ rest ∧ p ≠ [] ∧ Settles p out) ∨
      (∃ rest, Tears s [] rest) ∨ Agrees s := by
  obtain ⟨c, s, rfl⟩ := List.exists_cons_of_ne_nil hs
  by_cases hc : c = '\\'
  · subst c
    cases s with
    | nil => exact .inr (.inr agrees_backslash)
    | cons c rest =>
      by_cases hu : c = 'u'
      · subst c
        have hrest : '\\' :: 'u' :: rest = '\\' :: 'u' :: rest.take 4 ++ rest.drop 4 := by simp
        cases hname : named? (rest.take 4) with
        | some c => exact .inl ⟨_, _, _, hrest, List.cons_ne_nil _ _, .named hname⟩
        | none =>
          cases htorn : torn (rest.take 4) with
          | true => exact .inr (.inl ⟨rest, tears_here htorn hname⟩)
          | false =>
            by_cases hlength : 4 ≤ rest.length
            · have htaken : (rest.take 4).length = 4 := by simp [hlength]
              exact .inl ⟨_, _, _, hrest, List.cons_ne_nil _ _, .malformed htaken hname htorn⟩
            · exact .inr (.inr (agrees_unfinished (by omega) hname htorn))
      · exact .inl ⟨['\\', c], _, rest, rfl, List.cons_ne_nil _ _, .escape hu⟩
  · exact .inl ⟨[c], _, s, rfl, List.cons_ne_nil _ _, .plain hc⟩

/-- Where no escape is torn the reader follows the rule; otherwise it leaves it at the first one. -/
theorem agrees_or_tears (s : List Char) : Agrees s ∨ ∃ before rest, Tears s before rest := by
  by_cases hs : s = []
  · exact .inl (hs ▸ agrees_plain List.not_mem_nil)
  · rcases exists_settles hs with ⟨p, out, rest, rfl, hp, hsettles⟩ | ⟨rest, htears⟩ | hagrees
    · have hlt : rest.length < (p ++ rest).length := by
        simpa using List.length_pos_iff.mpr hp
      rcases agrees_or_tears rest with hrest | ⟨before, after, htears⟩
      · exact .inl (hsettles.agrees hrest)
      · exact .inr ⟨p ++ before, after, hsettles.tears htears⟩
    · exact .inr ⟨[], rest, htears⟩
    · exact .inl hagrees
termination_by s.length

end Reading

end Verdict.Literal
