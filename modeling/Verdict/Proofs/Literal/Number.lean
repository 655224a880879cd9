import Verdict.Proofs.Lexicon.Numeral
import Verdict.Proofs.Value.Numeral

namespace Verdict

/-- A text of ASCII characters. -/
def IsAscii (s : List Char) : Prop := ∀ c ∈ s, c.toNat < 128

instance (s : List Char) : Decidable (IsAscii s) := List.decidableBAll _ s

section IsAscii

variable {s ds : List Char}

theorem isAscii_append_iff : IsAscii (s ++ ds) ↔ IsAscii s ∧ IsAscii ds :=
  List.forall_mem_append

theorem isAscii_of_isDigit (h : ∀ c ∈ ds, c.isDigit = true) : IsAscii ds := by
  intro c hc
  have hlimit := toNat_of_isDigit (h c hc)
  omega

theorem isAscii_of_all (h : ¬ (ds.isEmpty || !ds.all Char.isDigit) = true) : IsAscii ds := by
  simp only [Bool.or_eq_true, Bool.not_eq_true', not_or, Bool.not_eq_false] at h
  exact isAscii_of_isDigit (List.all_eq_true.mp h.2)

theorem isAscii_of_takeSign (h : IsAscii (takeSign s).2) : IsAscii s := by
  unfold takeSign at h
  split at h
  next => exact List.forall_mem_cons.mpr ⟨by decide, h⟩
  next => exact List.forall_mem_cons.mpr ⟨by decide, h⟩
  next => exact h

theorem isAscii_of_toLower (h : IsAscii (s.map Char.toLower)) : IsAscii s := by
  intro c hc
  have hlower := h _ (List.mem_map_of_mem hc)
  rcases toLower_cases c with hupper | hother
  · omega
  · rwa [hother.2] at hlower

theorem isAscii_of_span (h : IsAscii (s.span Char.isDigit).2) : IsAscii s := by
  rw [List.span_eq_takeWhile_dropWhile] at h
  rw [← @List.takeWhile_append_dropWhile _ Char.isDigit s]
  exact isAscii_append_iff.mpr ⟨isAscii_of_isDigit fun _ => List.mem_takeWhile_imp, h⟩

end IsAscii

namespace Double

variable {negative : Bool} {s : List Char} {x : Double} {exponent : Int}

theorem isAscii_of_takeFraction (h : IsAscii (takeFraction s).2) : IsAscii s := by
  unfold takeFraction at h
  split at h
  next => exact List.forall_mem_cons.mpr ⟨by decide, isAscii_of_span h⟩
  next => exact h

theorem isAscii_of_readExponent? (h : readExponent? s = some exponent) : IsAscii s := by
  unfold readExponent? at h
  split at h
  next => exact fun _ hc => absurd hc List.not_mem_nil
  next c rest =>
    split at h
    next hletter =>
      have hc : c.toNat < 128 := by rcases hletter with rfl | rfl <;> decide
      dsimp only at h
      split at h
      next => cases h
      next hdigits => exact List.forall_mem_cons.mpr ⟨hc, isAscii_of_takeSign (isAscii_of_all hdigits)⟩
    next => cases h

theorem isAscii_of_readDecimal? (h : readDecimal? negative s = some x) : IsAscii s := by
  unfold readDecimal? at h
  dsimp only at h
  split at h
  next => cases h
  next =>
    obtain ⟨exponent, hexponent, _⟩ := Option.map_eq_some_iff.mp h
    exact isAscii_of_span (isAscii_of_takeFraction (isAscii_of_readExponent? hexponent))

/-- What is read as a floating-point number is ASCII. -/
theorem isAscii_of_ofText? (h : ofText? s = some x) : IsAscii s := by
  have hwords : IsAscii ['i', 'n', 'f'] ∧ IsAscii ['i', 'n', 'f', 'i', 'n', 'i', 't', 'y'] ∧
      IsAscii ['n', 'a', 'n'] := by
    decide
  refine isAscii_of_takeSign ?_
  unfold ofText? at h
  dsimp only at h
  split at h
  next hword =>
    refine isAscii_of_toLower ?_
    rcases hword with hword | hword
    · exact hword ▸ hwords.1
    · exact hword ▸ hwords.2.1
  next =>
    split at h
    next hword => exact isAscii_of_toLower (hword ▸ hwords.2.2)
    next => exact isAscii_of_readDecimal? h

end Double

namespace Literal

theorem isAscii_of_readInteger? {s : List Char} {k : Int64} (h : readInteger? s = some k) :
    IsAscii s := by
  refine isAscii_of_takeSign ?_
  unfold readInteger? at h
  dsimp only at h
  split at h
  next => cases h
  next hdigits => exact isAscii_of_all hdigits

end Literal

namespace Numeral

open Pattern

variable {before : Option Char} {m after : List Char}

theorem isAscii_text (n : Numeral) : IsAscii n.text := by
  intro c hc
  rcases n.mem_text hc with rfl | rfl | hdigit
  · decide
  · decide
  · have hlimit := toNat_of_isDigit hdigit
    omega

/-- The numeral of these parts. -/
theorem exists_of_digits {sign whole fraction : List Char} (hsign : sign = [] ∨ sign = ['-'])
    (hwhole : whole ≠ []) (hascii : IsAscii (whole ++ fraction))
    (hdigits : ∀ c ∈ whole ++ fraction, CharSet.digit.contains c = true) :
    ∃ n : Numeral, n.sign = sign ∧ n.whole = whole ∧ n.fraction = fraction := by
  have hall : (whole ++ fraction).all Char.isDigit = true := by
    refine List.all_eq_true.mpr fun c hc => ?_
    have hdigit : isDecimalDigit c = true := hdigits c hc
    rwa [isDecimalDigit, if_pos (hascii c hc)] at hdigit
  refine ⟨⟨decide (sign = ['-']), whole, fraction, hwhole, hall⟩, ?_, rfl, rfl⟩
  rcases hsign with rfl | rfl <;> rfl

theorem exists_of_integer (h : integer.Matches before m after) (hascii : IsAscii m) :
    ∃ n : Numeral, m = n.text ∧ n.fraction = [] := by
  obtain ⟨sign, whole, rfl, hsign, hne, hdigits⟩ := matches_integer_iff.mp h
  have hasciiDigits : IsAscii (whole ++ []) := by simpa using (isAscii_append_iff.mp hascii).2
  have hdigitsOnly : ∀ c ∈ whole ++ [], CharSet.digit.contains c = true := by simpa using hdigits
  obtain ⟨n, rfl, rfl, hfraction⟩ := exists_of_digits hsign hne hasciiDigits hdigitsOnly
  exact ⟨n, by simp [text, point, hfraction], hfraction⟩

theorem exists_of_float (h : float.Matches before m after) (hascii : IsAscii m) :
    ∃ n : Numeral, m = n.text ∧ n.fraction ≠ [] := by
  obtain ⟨sign, whole, fraction, rfl, hsign, ⟨hne, hwhole⟩, hne', hfraction⟩ :=
    matches_float_iff.mp h
  obtain ⟨hasciiWhole, hasciiRest⟩ := isAscii_append_iff.mp (isAscii_append_iff.mp hascii).2
  have hasciiFraction : IsAscii fraction := fun c hc => hasciiRest c (List.mem_cons_of_mem '.' hc)
  obtain ⟨n, rfl, rfl, rfl⟩ :=
    exists_of_digits hsign hne (isAscii_append_iff.mpr ⟨hasciiWhole, hasciiFraction⟩)
      (List.forall_mem_append.mpr ⟨hwhole, hfraction⟩)
  exact ⟨n, by simp [text, point, hne'], hne'⟩

theorem value?_text (n : Numeral) : Literal.value? n.kind (String.ofList n.text) = some n.literal := by
  have hfloat : Literal.value?.floatOrString (String.ofList n.text) = .float n.double := by
    rw [Literal.value?.floatOrString, String.toList_ofList, n.ofText?_text]
  unfold kind
  split
  next => rw [Literal.value?, String.toList_ofList, hfloat]; rfl
  next hn =>
    have hread : Literal.readInteger? n.text = none := by rw [n.readInteger?_text, if_neg hn]
    rw [Literal.value?, hfloat, literal, hread]

/-- The values of numerals, as the two readers give them. -/
theorem literal_spec (n : Numeral) :
    (n.kind = .integer ∧ Int64.minValue.toInt ≤ n.signed ∧ n.signed ≤ Int64.maxValue.toInt →
        ∃ k : Int64, k.toInt = n.signed ∧ n.literal = .integer k) ∧
      (¬ (n.kind = .integer ∧ Int64.minValue.toInt ≤ n.signed ∧
          n.signed ≤ Int64.maxValue.toInt) → n.literal = .float n.double) := by
  have hkind : n.kind = .integer ↔ n.fraction = [] := by
    unfold kind
    split
    next hn => simp [hn]
    next hn => simp [hn]
  rw [hkind, ← n.isSome_readInteger?_text, literal]
  cases hread : Literal.readInteger? n.text with
  | none => simp
  | some k =>
    rw [n.readInteger?_text] at hread
    split at hread
    next => exact ⟨fun _ => ⟨k, int64?_eq_some hread, rfl⟩, fun h => absurd rfl h⟩
    next => cases hread

end Numeral

namespace Lexicon

variable {text : String} {t : Token}

/-- The text of a number token, if it is ASCII, is a numeral of the kind of the token. -/
theorem numeral_of_mem_scan (ht : t ∈ standard.scan text) (hk : t.kind = .integer ∨ t.kind = .float)
    (hascii : IsAscii t.raw.toList) :
    ∃ n : Numeral, t.raw.toList = n.text ∧ t.kind = n.kind := by
  rcases hk with hk | hk
  · have hrules : ∀ call ∈ standardRules, call.1 = .integer → call.2.1 = r"-?\d+" := by decide
    have hread : Regex.read {} ("\\A(?:" ++ r"-?\d+" ++ ")").toList =
        .ok ⟨Pattern.integer.atStart, 1, []⟩ := rfl
    obtain ⟨rest, hmatch⟩ := matches_of_mem_scan hrules hread (by simp) ht hk
    obtain ⟨n, htext, hn⟩ := Numeral.exists_of_integer hmatch hascii
    exact ⟨n, htext, hk.trans (if_pos hn).symm⟩
  · have hrules : ∀ call ∈ standardRules, call.1 = .float → call.2.1 = r"-?\d+\.\d+" := by decide
    have hread : Regex.read {} ("\\A(?:" ++ r"-?\d+\.\d+" ++ ")").toList =
        .ok ⟨Pattern.float.atStart, 1, []⟩ := rfl
    obtain ⟨rest, hmatch⟩ := matches_of_mem_scan hrules hread (by simp) ht hk
    obtain ⟨n, htext, hn⟩ := Numeral.exists_of_float hmatch hascii
    exact ⟨n, htext, hk.trans (if_neg hn).symm⟩

end Lexicon

/-- Where the text of a number is not ASCII, no reader of numbers takes it. -/
theorem Literal.value?_of_not_isAscii {kind : TokenKind} {raw : String}
    (hk : kind = .integer ∨ kind = .float) (h : ¬ IsAscii raw.toList) :
    value? kind raw = some (.string raw) := by
  have hfloat : value?.floatOrString raw = .string raw := by
    unfold value?.floatOrString
    split
    next x hx => exact absurd (Double.isAscii_of_ofText? hx) h
    next => rfl
  rcases hk with rfl | rfl
  · rw [value?]
    split
    next k hread => exact absurd (isAscii_of_readInteger? hread) h
    next => rw [hfloat]
  · rw [value?, hfloat]

/-- A number token whose text is ASCII has for its value the integer that its text denotes, if it is
one without a point and in the range of 64 bits, and the nearest floating-point number otherwise. The
text of any other number token is itself the value. -/
theorem number_token_value (text : String) (t : Token) (ht : t ∈ Lexicon.standard.scan text)
    (hk : t.kind = .integer ∨ t.kind = .float) :
    (IsAscii t.raw.toList → ∃ n : Numeral, t.raw.toList = n.text ∧ t.kind = n.kind ∧
      Double.ofText? t.raw.toList = some n.double ∧
      (t.kind = .integer ∧ Int64.minValue.toInt ≤ n.signed ∧ n.signed ≤ Int64.maxValue.toInt →
        ∃ k : Int64, k.toInt = n.signed ∧ t.value = some (.integer k)) ∧
      (¬ (t.kind = .integer ∧ Int64.minValue.toInt ≤ n.signed ∧
          n.signed ≤ Int64.maxValue.toInt) → t.value = some (.float n.double))) ∧
    (¬ IsAscii t.raw.toList → t.value = some (.string t.raw)) := by
  have hvalue := Lexicon.value_of_mem_scan ht
  refine ⟨fun hascii => ?_, fun hascii => hvalue.trans (Literal.value?_of_not_isAscii hk hascii)⟩
  obtain ⟨n, htext, hkind⟩ := Lexicon.numeral_of_mem_scan ht hk hascii
  have hliteral : t.value = some n.literal := by
    rw [hvalue, hkind, ← n.value?_text, ← htext, String.ofList_toList]
  obtain ⟨hinteger, hfloat⟩ := n.literal_spec
  rw [hkind, hliteral, htext]
  refine ⟨n, rfl, rfl, n.ofText?_text, fun h => ?_, fun h => congrArg some (hfloat h)⟩
  obtain ⟨k, hsigned, hn⟩ := hinteger h
  exact ⟨k, hsigned, congrArg some hn⟩

theorem number_token_value_least :
    let n : Numeral := ⟨true, "9223372036854775808".toList, [], by decide, by decide⟩
    n.signed = Int64.minValue.toInt ∧
      ∃ t ∈ Lexicon.standard.scan (String.ofList n.text), (t.kind = .integer ∨ t.kind = .float) ∧
        IsAscii t.raw.toList ∧ t.value = some (.integer Int64.minValue) := by
  intro n
  have hsigned : n.signed = Int64.minValue.toInt := by decide
  obtain ⟨t, ht, hk, hraw⟩ := n.mem_scan_text
  have hascii : IsAscii t.raw.toList := hraw ▸ n.isAscii_text
  obtain ⟨n', htext, _, _, hinteger, _⟩ := (number_token_value _ t ht (.inl hk)).1 hascii
  obtain rfl : n = n' := Numeral.text_injective (hraw.symm.trans htext)
  obtain ⟨k, hvalue, ht'⟩ := hinteger ⟨hk, by rw [hsigned]; decide⟩
  obtain rfl : k = Int64.minValue := Int64.toInt_inj.mp (hvalue.trans hsigned)
  exact ⟨hsigned, t, ht, .inl hk, hascii, ht'⟩

/-- Digits of another script make a number token that is no number. -/
theorem number_token_unread :
    ∃ t ∈ Lexicon.standard.scan "٣", t.kind = .integer ∧ t.value = some (.string "٣") := by
  have hscan : (Lexicon.standard.scan "٣").map (fun t => (t.kind, t.raw)) = [(.integer, "٣")] := by
    decide +kernel
  obtain ⟨t, ht, hfound⟩ := List.mem_map.mp (hscan ▸ List.mem_singleton_self _)
  obtain ⟨hk, hraw⟩ := Prod.mk.inj hfound
  refine ⟨t, ht, hk, ?_⟩
  rw [Lexicon.value_of_mem_scan ht, hk, hraw]
  rfl

end Verdict
