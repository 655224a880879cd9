import Verdict.Proofs.Lexicon.Quoted
import Verdict.Proofs.Number.Numeral

namespace Verdict

namespace Pattern

def minus : Pattern := .loop 0 (some 1) true (.one (.char '-'))

def digits : Pattern := .loop 1 none true (.one .digit)

def integer : Pattern := .seq minus digits

def float : Pattern := .seq minus (.seq digits (.seq (.one (.char '.')) digits))

def blanks : Pattern :=
  .loop 1 none true (.one (.union (.char ' ') (.union (.char '\t') (.char '\r'))))

variable {before : Option Char} {negative : Bool} {ds m after : List Char}

theorem contains_digit {c : Char} (h : c.isDigit = true) : CharSet.digit.contains c = true :=
  isDecimalDigit_of_isDigit h

theorem prefers_minus (hafter : after.head? ≠ some '-') :
    minus.Prefers before (if negative then ['-'] else []) after := by
  cases negative with
  | true => exact .optional (.one rfl)
  | false =>
    refine .absent (not_matches_of_opens rfl fun c hc => ?_)
    have hne : c ≠ '-' := by
      rintro rfl
      exact hafter hc
    simp [opens, hne]

theorem prefers_digits (hne : ds ≠ []) (hds : ∀ c ∈ ds, c.isDigit = true)
    (hafter : ∀ c, after.head? = some c → CharSet.digit.contains c = false) :
    digits.Prefers before ds after :=
  .oneOrMoreOf hne (fun c hc => contains_digit (hds c hc)) hafter

/-- What follows the digits of a text, and the minus sign before them. -/
def afterDigits (s : List Char) : List Char :=
  (match s with
    | '-' :: rest => rest
    | s => s).dropWhile CharSet.digit.contains

theorem afterDigits_append {sign : List Char} (hsign : sign = [] ∨ sign = ['-']) (hne : ds ≠ [])
    (hds : ∀ c ∈ ds, CharSet.digit.contains c = true)
    (hafter : ∀ c, after.head? = some c → CharSet.digit.contains c = false) :
    afterDigits (sign ++ (ds ++ after)) = after := by
  have hdrop : (ds ++ after).dropWhile CharSet.digit.contains = after := by
    have hspan := span_append hds hafter
    rw [List.span_eq_takeWhile_dropWhile] at hspan
    exact congrArg Prod.snd hspan
  rcases hsign with rfl | rfl
  · obtain ⟨c, ds, rfl⟩ := List.exists_cons_of_ne_nil hne
    have hminus : c ≠ '-' := by
      rintro rfl
      exact absurd (hds '-' List.mem_cons_self) (by decide)
    simpa [afterDigits, hminus] using hdrop
  · exact hdrop

theorem matches_minus_iff : minus.Matches before m after ↔ m = [] ∨ m = ['-'] := by
  rw [minus, matches_optional_iff, matches_one_iff]
  simp [CharSet.contains]

theorem matches_digits_iff : digits.Matches before m after ↔
    m ≠ [] ∧ ∀ c ∈ m, CharSet.digit.contains c = true := by
  rw [digits, matches_loop_one_iff, ← List.length_pos_iff]
  rfl

theorem matches_integer_iff : integer.Matches before m after ↔
    ∃ sign whole, m = sign ++ whole ∧ (sign = [] ∨ sign = ['-']) ∧ whole ≠ [] ∧
      ∀ c ∈ whole, CharSet.digit.contains c = true := by
  simp only [integer, matches_seq_iff, matches_minus_iff, matches_digits_iff]

theorem matches_float_iff : float.Matches before m after ↔
    ∃ sign whole fraction, m = sign ++ (whole ++ '.' :: fraction) ∧ (sign = [] ∨ sign = ['-']) ∧
      (whole ≠ [] ∧ ∀ c ∈ whole, CharSet.digit.contains c = true) ∧
      (fraction ≠ [] ∧ ∀ c ∈ fraction, CharSet.digit.contains c = true) := by
  simp only [float, matches_seq_iff, matches_minus_iff, matches_digits_iff, matches_one_iff,
    CharSet.contains, beq_iff_eq]
  constructor
  · rintro ⟨sign, _, rfl, hsign, whole, _, rfl, hwhole, _, fraction, rfl, ⟨c, rfl, rfl⟩, hfraction⟩
    exact ⟨sign, whole, fraction, rfl, hsign, hwhole, hfraction⟩
  · rintro ⟨sign, whole, fraction, rfl, hsign, hwhole, hfraction⟩
    exact ⟨sign, _, rfl, hsign, whole, _, rfl, hwhole, ['.'], fraction, rfl, ⟨'.', rfl, rfl⟩,
      hfraction⟩

/-- A floating-point number has a point after its first digits. -/
theorem head?_afterDigits_of_float {x y : List Char} (h : float.Matches none x y) :
    (afterDigits (x ++ y)).head? = some '.' := by
  obtain ⟨sign, whole, fraction, rfl, hsign, ⟨hne, hdigits⟩, _⟩ := matches_float_iff.mp h
  have hafter : afterDigits (sign ++ (whole ++ '.' :: (fraction ++ y))) = '.' :: (fraction ++ y) :=
    afterDigits_append hsign hne hdigits fun c hc => by
      cases hc
      decide
  simpa using congrArg List.head? hafter

end Pattern

namespace Lexicon

/-- What the standard lexicon can match where a numeral, a blank or an equality sign begins. -/
theorem standard_candidates :
    ('-' :: "0123456789".toList).map standard.candidates = List.replicate 11
        [(.float, Pattern.float.atStart), (.integer, Pattern.integer.atStart)] ∧
      standard.candidates ' ' = [(.space, Pattern.blanks.atStart)] ∧
      standard.candidates '=' =
        [(.comparison .equalStrict, Pattern.atStart (.seq (.one (.char '='))
          (.seq (.one (.char '=')) (.one (.char '='))))),
         (.comparison .equal, Pattern.atStart (.seq (.one (.char '=')) (.one (.char '=')))),
         (.comparison .equal, Pattern.atStart (.one (.char '=')))] := by
  rw [candidates_standard]
  decide +kernel

variable {rest : List Char}

theorem begins_space (hrest : ∀ c, rest.head? = some c → Pattern.blanks.opens c = false) :
    standard.Begins .space [' '] rest := by
  obtain ⟨_, hspace, _⟩ := standard_candidates
  have hblank : Pattern.blanks.Prefers none [' '] rest :=
    .oneOrMoreOf (List.cons_ne_nil _ _) (by simp [CharSet.contains]) hrest
  exact begins_of_candidates anchored_standard [] hspace (fun _ hq => absurd hq List.not_mem_nil)
    hblank.atStart

theorem begins_equal (hrest : rest.head? ≠ some '=') :
    standard.Begins (.comparison .equal) ['=', '='] rest := by
  obtain ⟨_, _, hequal⟩ := standard_candidates
  have htwo : (Pattern.seq (.one (.char '=')) (.one (.char '='))).Prefers none ['=', '='] rest :=
    .seq (m := ['=']) (.one rfl) (.one rfl)
  refine begins_of_candidates anchored_standard [_] hequal ?_ htwo.atStart
  intro q hq x y hxy hmatch
  cases List.mem_singleton.mp hq
  obtain ⟨a, x, rfl, ha, hx⟩ := Pattern.matches_seq_iff.mp (Pattern.matches_atStart_iff.mp hmatch)
  obtain ⟨b, c, rfl, hb, hc⟩ := Pattern.matches_seq_iff.mp hx
  obtain ⟨_, rfl, _⟩ := Pattern.matches_one_iff.mp ha
  obtain ⟨_, rfl, _⟩ := Pattern.matches_one_iff.mp hb
  obtain ⟨d, rfl, hd⟩ := Pattern.matches_one_iff.mp hc
  obtain rfl : d = '=' := by simpa using hd
  have hthird : rest = '=' :: y := (List.cons.inj (List.cons.inj hxy).2).2
  exact hrest (by rw [hthird]; rfl)

end Lexicon

namespace Numeral

open Pattern

variable (n : Numeral) {before : Option Char} {after : List Char}

/-- A numeral with a point is a floating-point number. The longer pattern for these stands above the
one for integers, but needs the point. -/
def kind : TokenKind := if n.fraction = [] then .integer else .float

theorem text_eq_cons : ∃ c s, n.text = c :: s ∧ c ∈ '-' :: "0123456789".toList := by
  obtain ⟨c, ds, hwhole, hc⟩ := n.whole_eq_cons
  unfold text sign
  split
  next => exact ⟨'-', _, rfl, List.mem_cons_self⟩
  next => exact ⟨c, ds ++ n.point, by simp [hwhole], List.mem_cons_of_mem _ (mem_of_isDigit hc)⟩

theorem head?_whole_append_ne_minus (s : List Char) : (n.whole ++ s).head? ≠ some '-' := by
  obtain ⟨c, ds, hwhole, hc⟩ := n.whole_eq_cons
  have hminus : c ≠ '-' := ne_of_isDigit hc rfl
  simpa [hwhole] using hminus

theorem prefers_integer (hn : n.fraction = [])
    (hafter : ∀ c, after.head? = some c → CharSet.digit.contains c = false) :
    integer.Prefers before n.text after := by
  have htext : n.text = n.sign ++ n.whole := by simp [text, point, hn]
  rw [htext]
  exact .seq (prefers_minus (n.head?_whole_append_ne_minus after))
    (prefers_digits n.whole_ne_nil (fun c => n.isDigit_of_mem_whole) hafter)

theorem prefers_float (hn : n.fraction ≠ [])
    (hafter : ∀ c, after.head? = some c → CharSet.digit.contains c = false) :
    float.Prefers before n.text after := by
  have htext : n.text = n.sign ++ (n.whole ++ (['.'] ++ n.fraction)) := by simp [text, point, hn]
  rw [htext]
  refine .seq (prefers_minus ?_) (.seq (prefers_digits n.whole_ne_nil
    (fun c => n.isDigit_of_mem_whole) ?_) (.seq (.one rfl)
      (prefers_digits hn (fun c => n.isDigit_of_mem_fraction) hafter)))
  · rw [List.append_assoc]
    exact n.head?_whole_append_ne_minus _
  · intro c hc
    cases hc
    decide

theorem not_float_matches (hn : n.fraction = [])
    (hafter : ∀ c, after.head? = some c → CharSet.digit.contains c = false ∧ c ≠ '.')
    {x y : List Char} (hxy : n.text ++ after = x ++ y) : ¬ float.Matches none x y := by
  intro hmatch
  have hsign : n.sign = [] ∨ n.sign = ['-'] := by
    unfold sign
    split <;> simp
  have htext : n.text ++ after = n.sign ++ (n.whole ++ after) := by simp [text, point, hn]
  have hhead := head?_afterDigits_of_float hmatch
  rw [← hxy, htext, afterDigits_append hsign n.whole_ne_nil
    (fun c hc => contains_digit (n.isDigit_of_mem_whole hc)) fun c hc => (hafter c hc).1] at hhead
  exact (hafter '.' hhead).2 rfl

/-- A numeral is one token, if neither a digit nor a point goes on with it. -/
theorem begins_text
    (hafter : ∀ c, after.head? = some c → CharSet.digit.contains c = false ∧ c ≠ '.') :
    Lexicon.standard.Begins n.kind n.text after := by
  obtain ⟨c, s, htext, hc⟩ := n.text_eq_cons
  obtain ⟨hnumerals, _, _⟩ := Lexicon.standard_candidates
  have hnumeral := List.map_eq_replicate_iff.mp hnumerals c hc
  have hdigit : ∀ c, after.head? = some c → CharSet.digit.contains c = false :=
    fun c hc => (hafter c hc).1
  by_cases hn : n.fraction = []
  · have hprefers : integer.Prefers none (c :: s) after := htext ▸ n.prefers_integer hn hdigit
    have hkind : n.kind = .integer := if_pos hn
    rw [htext, hkind]
    refine Lexicon.begins_of_candidates Lexicon.anchored_standard [_] hnumeral ?_ hprefers.atStart
    intro q hq x y hxy hmatch
    cases List.mem_singleton.mp hq
    rw [← htext] at hxy
    exact n.not_float_matches hn hafter hxy (matches_atStart_iff.mp hmatch)
  · have hprefers : float.Prefers none (c :: s) after := htext ▸ n.prefers_float hn hdigit
    have hkind : n.kind = .float := if_neg hn
    rw [htext, hkind]
    exact Lexicon.begins_of_candidates Lexicon.anchored_standard [] hnumeral
      (fun _ hq => absurd hq List.not_mem_nil) hprefers.atStart

/-- A numeral by itself is one token. -/
theorem mem_scan_text : ∃ t ∈ Lexicon.standard.scan (String.ofList n.text),
    t.kind = n.kind ∧ t.raw.toList = n.text := by
  have hbegins : Lexicon.standard.Begins n.kind n.text [] := n.begins_text fun _ h => by cases h
  obtain ⟨later, hscan⟩ := hbegins.scan_eq n.text_ne_nil
  rw [List.append_nil] at hscan
  exact ⟨_, hscan ▸ @List.mem_cons_self _ _ later, rfl, String.toList_ofList⟩

/-- The rule that asks whether a numeral equals the same text in quotes. -/
def comparison : String :=
  String.ofList (n.text ++ " == \"".toList ++ n.text ++ ['"'])

open Lexicon in
theorem scan_comparison : ∃ l₁ l₂ l₃ l₄ l₅, standard.scan n.comparison =
    [makeToken n.kind n.text l₁, makeToken .space [' '] l₂,
     makeToken (.comparison .equal) ['=', '='] l₃, makeToken .space [' '] l₄,
     makeToken .string ('"' :: (n.text ++ ['"'])) l₅] := by
  have hquote : '"' ∉ n.text := n.not_mem_text (by decide) (by decide) rfl
  have hslash : '\\' ∉ n.text := n.not_mem_text (by decide) (by decide) rfl
  have hrest : n.comparison.toList =
      n.text ++ ([' '] ++ (['=', '='] ++ ([' '] ++ ('"' :: (n.text ++ ['"']) ++ [])))) := by
    simp [comparison]
  have hcuts := standard.scan_cuts n.comparison
  rw [hrest] at hcuts
  obtain ⟨_, h₁, hcuts⟩ := hcuts.of_begins n.text_ne_nil
    (n.begins_text fun c hc => by cases hc; decide)
  obtain ⟨_, h₂, hcuts⟩ := hcuts.of_begins (List.cons_ne_nil _ _)
    (begins_space fun c hc => by cases hc; decide)
  obtain ⟨_, h₃, hcuts⟩ := hcuts.of_begins (List.cons_ne_nil _ _)
    (begins_equal (by simp))
  obtain ⟨_, h₄, hcuts⟩ := hcuts.of_begins (List.cons_ne_nil _ _)
    (begins_space fun c hc => by cases hc; decide)
  obtain ⟨_, h₅, hcuts⟩ := hcuts.of_begins (List.cons_ne_nil _ _)
    (begins_string (.inl rfl) (.of_plain hquote hslash))
  exact ⟨_, _, _, _, _, by rw [h₁, h₂, h₃, h₄, h₅, hcuts.eq_nil]⟩

end Numeral

end Verdict
