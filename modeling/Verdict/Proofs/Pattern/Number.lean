import Verdict.Pattern.Literal
import Verdict.Proofs.Number.Form
import Verdict.Proofs.Token.Word

namespace Verdict

namespace Pattern

def sign : Pattern := .loop 0 (some 1) true (.one (.union (.char '+') (.char '-')))

def mantissa : Pattern :=
  .alt (.seq digits (.seq (.loop 0 (some 1) true (.one (.char '.'))) (.loop 0 none true (.one .digit))))
    (.seq (.one (.char '.')) digits)

def exponent : Pattern :=
  .seq (.one (.union (.char 'e') (.char 'E'))) (.seq sign digits)

def number : Pattern :=
  .seq sign (.alt (spelled "Infinity".toList []) (.seq mantissa (.loop 0 (some 1) true exponent)))

section Matches

variable {before : Option Char} {m after : List Char}

theorem matches_sign_iff : sign.Matches before m after ↔ m ∈ signs := by
  rw [sign, matches_optional_iff, matches_one_iff]
  simp only [CharSet.contains, Bool.or_eq_true, beq_iff_eq, signs, List.mem_cons, List.not_mem_nil,
    or_false]
  constructor
  · rintro (rfl | ⟨c, rfl, rfl | rfl⟩)
    · exact .inl rfl
    · exact .inr (.inr rfl)
    · exact .inr (.inl rfl)
  · rintro (rfl | rfl | rfl)
    · exact .inl rfl
    · exact .inr ⟨'-', rfl, .inr rfl⟩
    · exact .inr ⟨'+', rfl, .inl rfl⟩

theorem matches_mantissa_iff : mantissa.Matches before m after ↔ Mantissa isDecimalDigit m := by
  simp only [mantissa, matches_alt_iff, matches_seq_iff, matches_digits_iff, matches_optional_iff,
    matches_one_iff, matches_loop_one_iff, CharSet.contains, beq_iff_eq]
  constructor
  · rintro (⟨ds, _, rfl, ⟨hne, hds⟩, _, fraction, rfl, rfl | ⟨c, rfl, rfl⟩, _, hfraction⟩ |
      ⟨_, ds, rfl, ⟨c, rfl, rfl⟩, hne, hds⟩)
    · rw [List.nil_append]
      refine .whole (List.append_ne_nil_of_left_ne_nil hne fraction) ?_
      exact List.forall_mem_append.mpr ⟨hds, hfraction⟩
    · exact .point hne hds hfraction
    · exact .fraction hne hds
  · intro h
    cases h with
    | whole hne hds =>
      exact .inl ⟨m, [], (List.append_nil m).symm, ⟨hne, hds⟩, [], [], rfl, .inl rfl, by simp⟩
    | @point ds fraction hne hds hfraction =>
      exact .inl ⟨ds, _, rfl, ⟨hne, hds⟩, ['.'], fraction, rfl, .inr ⟨'.', rfl, rfl⟩,
        Nat.zero_le _, hfraction⟩
    | @fraction ds hne hds => exact .inr ⟨['.'], ds, rfl, ⟨'.', rfl, rfl⟩, hne, hds⟩

theorem matches_exponent_iff : exponent.Matches before m after ↔
    m ≠ [] ∧ Exponent isDecimalDigit m := by
  simp only [exponent, matches_seq_iff, matches_sign_iff, matches_digits_iff, matches_one_iff,
    CharSet.contains, Bool.or_eq_true, beq_iff_eq]
  constructor
  · rintro ⟨_, _, rfl, ⟨c, rfl, hc⟩, sign, ds, rfl, hsign, hne, hds⟩
    have hexponent : Exponent isDecimalDigit (c :: (sign ++ ds)) := .present hc hsign hne hds
    exact ⟨List.cons_ne_nil _ _, hexponent⟩
  · rintro ⟨hnil, h⟩
    cases h with
    | absent => exact absurd rfl hnil
    | @present letter sign ds hletter hsign hne hds =>
      exact ⟨[letter], sign ++ ds, rfl, ⟨letter, rfl, hletter⟩, sign, ds, rfl, hsign,
        hne, hds⟩

theorem matches_number_iff : number.Matches before m after ↔ NumberForm isDecimalDigit m := by
  simp only [number, matches_seq_iff, matches_sign_iff, matches_alt_iff, matches_spelled_iff,
    matches_seqAll_nil_iff, matches_mantissa_iff, matches_optional_iff, matches_exponent_iff]
  constructor
  · rintro ⟨sign, x, rfl, hsign, ⟨n, rfl, rfl⟩ | ⟨m, e, rfl, hm, he⟩⟩
    · exact ⟨sign, _, hsign, .inl (List.append_nil _), rfl⟩
    · refine ⟨sign, _, hsign, .inr ⟨m, e, hm, ?_, rfl⟩, rfl⟩
      rcases he with rfl | ⟨_, he⟩
      · exact .absent
      · exact he
  · rintro ⟨sign, x, hsign, rfl | ⟨m, e, hm, he, rfl⟩, rfl⟩
    · exact ⟨sign, _, rfl, hsign, .inl ⟨[], (List.append_nil _).symm, rfl⟩⟩
    · refine ⟨sign, _, rfl, hsign, .inr ⟨m, e, rfl, hm, ?_⟩⟩
      by_cases hnil : e = []
      · exact .inl hnil
      · exact .inr ⟨hnil, he⟩

end Matches

section Prefers

variable {before : Option Char} {m e after : List Char}

theorem prefers_sign {s : List Char} (hs : s ∈ signs) (hafter : s = [] → Signless after) :
    sign.Prefers before s after := by
  simp only [signs, List.mem_cons, List.not_mem_nil, or_false] at hs
  rcases hs with rfl | rfl | rfl
  · refine .absent (not_matches_of_opens rfl fun c hc => ?_)
    obtain ⟨hminus, hplus⟩ := hafter rfl c hc
    simp [opens, CharSet.contains, hminus, hplus]
  · exact .optional (.one rfl)
  · exact .optional (.one rfl)

/-- No digit follows a mantissa that is preferred, nor does a point if it has none itself. -/
theorem prefers_mantissa (hm : Mantissa isDecimalDigit m)
    (hdigit : ∀ c, after.head? = some c → isDecimalDigit c = false)
    (hpoint : '.' ∉ m → after.head? ≠ some '.') : mantissa.Prefers before m after := by
  have hdot : isDecimalDigit '.' = false := by decide
  cases hm with
  | whole hne hds =>
    have hout : '.' ∉ m := by
      intro hmem
      rw [hds '.' hmem] at hdot
      cases hdot
    have hdigits : digits.Prefers before m ([] ++ after) := .oneOrMoreOf hne hds hdigit
    have habsent : (loop 0 (some 1) true (.one (.char '.'))).Prefers (lastRead before m) []
        ([] ++ after) := by
      refine .absent (not_matches_of_opens rfl fun c hc => ?_)
      have hc' : c ≠ '.' := by
        rintro rfl
        exact hpoint hout hc
      simp [opens, hc']
    have hnone : (loop 0 none true (.one .digit)).Prefers (lastRead (lastRead before m) []) [] after :=
      .many rfl (.stop_of_opens hdigit)
    have hseq := hdigits.seq (habsent.seq hnone)
    rw [List.append_nil] at hseq
    exact hseq.left
  | @point ds fraction hne hds hfraction =>
    have hdigits : digits.Prefers before ds ('.' :: fraction ++ after) := by
      refine .oneOrMoreOf hne hds fun c hc => ?_
      cases hc
      exact hdot
    have hpoint : (loop 0 (some 1) true (.one (.char '.'))).Prefers (lastRead before ds) ['.']
        (fraction ++ after) := .optional (.one rfl)
    have hfraction : (loop 0 none true (.one .digit)).Prefers (lastRead (lastRead before ds) ['.'])
        fraction after := .many rfl (.all hfraction hdigit)
    exact (hdigits.seq (hpoint.seq hfraction)).left
  | @fraction ds hne hds =>
    refine .right ?_ (.seq (m := ['.']) (.one rfl) (.oneOrMoreOf hne hds hdigit))
    apply not_matches_of_opens rfl
    intro c hc
    cases hc
    decide

theorem prefers_exponent (he : Exponent isDecimalDigit e)
    (hdigit : e ≠ [] → ∀ c, after.head? = some c → isDecimalDigit c = false)
    (hnone : e = [] → ∀ x y, after = x ++ y → x ≠ [] → ¬ Exponent isDecimalDigit x) :
    (loop 0 (some 1) true exponent).Prefers before e after := by
  cases he with
  | absent =>
    refine .absent fun x y hxy hmatch => ?_
    obtain ⟨hne, hx⟩ := matches_exponent_iff.mp hmatch
    exact hnone rfl x y hxy hne hx
  | @present letter s ds hletter hs hne hds =>
    have hset : (CharSet.union (.char 'e') (.char 'E')).contains letter = true := by
      simpa [CharSet.contains] using hletter
    have hsignless : Signless (ds ++ after) :=
      (signless_of_all (by decide) (by decide) hds).append hne after
    have hdigits : digits.Prefers (lastRead (lastRead before [letter]) s) ds after :=
      .oneOrMoreOf hne hds (hdigit (List.cons_ne_nil _ _))
    exact .optional (.seq (m := [letter]) (.one hset) (.seq (prefers_sign hs fun _ => hsignless) hdigits))

/-- The longest text of the form is preferred: nothing can be added to it, and no choice on the way
to it is taken back. -/
theorem prefers_number {w : List Char}
    (h : LongestPrefix (NumberForm isDecimalDigit) (w ++ after) w) : number.Prefers before w after := by
  obtain ⟨s, x, hs, hx, rfl⟩ := h.holds
  have hsignless : Signless (x ++ after) :=
    (hx.signless (by decide) (by decide)).append hx.ne_nil after
  refine .seq (prefers_sign hs fun _ => hsignless) ?_
  rcases hx with rfl | ⟨m, e, hm, he, rfl⟩
  · refine .left ?_
    have hword : (spelled "Infinity".toList []).Prefers (lastRead before s) ("Infinity".toList ++ [])
        after := .spelled .empty
    rwa [List.append_nil] at hword
  · have hform : ∀ n f, Mantissa isDecimalDigit n → Exponent isDecimalDigit f →
        NumberForm isDecimalDigit (s ++ (n ++ f)) :=
      fun n f hn hf => ⟨s, n ++ f, hs, .inr ⟨n, f, hn, hf, rfl⟩, rfl⟩
    have hend : ∀ c, after.head? = some c → ¬ NumberForm isDecimalDigit (s ++ (m ++ e) ++ [c]) := by
      intro c hc
      obtain ⟨y, hy⟩ := List.head?_eq_some_iff.mp hc
      exact h.not_append hy (List.cons_ne_nil c [])
    refine .right ?_ (.seq (prefers_mantissa hm ?_ ?_) (prefers_exponent he ?_ ?_))
    · apply not_matches_of_opens rfl
      intro c hc
      obtain ⟨d, rest, rfl, hd⟩ := hm.eq_cons
      cases hc
      have hletter : c ≠ 'I' := by
        rintro rfl
        exact absurd hd (by decide)
      simp [spelled, seqAll, opens, nullable, hletter]
    · intro c hc
      cases hdigit : isDecimalDigit c with
      | false => rfl
      | true =>
        cases e with
        | nil =>
          have hlonger := hform _ [] (hm.concat hdigit) .absent
          exact absurd (by simpa using hlonger) (hend c hc)
        | cons d e =>
          rcases he.head c hc with rfl | rfl
          · exact absurd hdigit (by decide)
          · exact absurd hdigit (by decide)
    · intro hpoint hhead
      cases e with
      | nil =>
        have hlonger := hform _ [] (hm.concat_point hpoint) .absent
        exact absurd (by simpa using hlonger) (hend '.' hhead)
      | cons d e => exact absurd (he.head '.' hhead) (by decide)
    · intro hne c hc
      cases hdigit : isDecimalDigit c with
      | false => rfl
      | true =>
        have hlonger := hform m _ hm (he.concat hne hdigit)
        exact absurd (by simpa using hlonger) (hend c hc)
    · rintro rfl x y hxy hne hexponent
      have hlonger := hform m x hm hexponent
      exact h.not_append hxy hne (by simpa using hlonger)

end Prefers

end Pattern

/-- The pattern for the number that a text begins with. -/
def numberPrefix : RegexLiteral :=
  ⟨r"\A[+-]?(?:Infinity|(?:\d+\.?\d*|\.\d+)(?:[eE][+-]?\d+)?)", ""⟩

theorem numberPrefix_compile :
    numberPrefix.compile = .ok ⟨Pattern.number.atStart, 1, []⟩ :=
  rfl

/-- A search for the pattern finds the longest text that has the form, and nothing if there is none. -/
theorem matchEnd?_numberPrefix {re : Regex} (hre : numberPrefix.compile = .ok re) (s : List Char) :
    (∀ w, LongestPrefix (NumberForm isDecimalDigit) s w → re.matchEnd? s s.length = some w.length) ∧
      ((∀ w, w <+: s → ¬ NumberForm isDecimalDigit w) → re.matchEnd? s s.length = none) := by
  rw [numberPrefix_compile] at hre
  cases hre
  constructor
  · intro w hw
    obtain ⟨after, rfl⟩ := hw.begins
    exact Regex.matchEnd?_of_prefers (Pattern.prefers_number hw).atStart
  · intro hnone
    refine Option.eq_none_iff_forall_ne_some.mpr fun n hn => ?_
    obtain ⟨gap, m, after, rfl, _, hmatch⟩ := Regex.matchEnd?_eq_some hn
    have hbefore := Pattern.before_eq_none_of_anchored (p := Pattern.number.atStart) rfl hmatch
    obtain ⟨rfl, _⟩ := lastRead_eq_none_iff.mp hbefore
    have hform := Pattern.matches_number_iff.mp (Pattern.matches_atStart_iff.mp hmatch)
    exact hnone m (List.prefix_append m after) hform

end Verdict
