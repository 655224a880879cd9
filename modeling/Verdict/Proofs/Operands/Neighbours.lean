import Mathlib.Data.List.Chain
import Verdict.Proofs.Operands.Placeholder

namespace Verdict

/-- Of two tokens that follow each other, the first does not ask for a value of the second that is a
variable, nor the second for one of the first. -/
def Neutral (a b : Token) : Prop :=
  ¬ (a.IsVariable ∧ b.kind = .method) ∧ ¬ (a.kind = .comparison .member ∧ b.IsVariable)

instance (a b : Token) : Decidable (Neutral a b) :=
  inferInstanceAs (Decidable
    (¬ (a.IsVariable ∧ b.kind = .method) ∧ ¬ (a.kind = .comparison .member ∧ b.IsVariable)))

section

variable {depth : Nat} {a b t : Token} {ts us g g' : List Token} {items : List Term}
  {item term receiver : Term}

theorem neutral_of_left (hv : a.kind ≠ .identifier) (hm : a.kind ≠ .comparison .member) :
    Neutral a b :=
  ⟨fun h => hv h.1.1, fun h => hm h.1⟩

theorem neutral_of_right (hv : b.kind ≠ .identifier) (hm : b.kind ≠ .method) : Neutral a b :=
  ⟨fun h => hm h.2, fun h => hv h.2.1⟩

/-- The tokens of a phrase are neutral to each other if no method is called on a variable. Of a
value or a list, the last token is known. -/
def Phrase.Neutral (ts : List Token) : Phrase → Prop
  | .value term => ((significant ts).IsChain Verdict.Neutral ↔ term.CallsFixed) ∧
      ∃ last, (significant ts).getLast? = some last ∧ last.kind ≠ .comparison .member ∧
        (last.IsVariable ↔ term.IsVariable)
  | .series items => (significant ts).IsChain Verdict.Neutral ↔ Term.AllFixed items
  | .list closer items => closer.isTrivia = false → closer ≠ .identifier → closer ≠ .method →
      ((significant ts).IsChain Verdict.Neutral ↔ Term.AllFixed items) ∧
        ∃ last, (significant ts).getLast? = some last ∧ last.kind = closer

theorem isChain_cons_neutral (hv : t.kind ≠ .identifier) (hm : t.kind ≠ .comparison .member) :
    (t :: ts).IsChain Neutral ↔ ts.IsChain Neutral := by
  rw [List.isChain_cons]
  exact ⟨fun h => h.2, fun h => ⟨fun _ _ => neutral_of_left hv hm, h⟩⟩

/-- Both sides of a token that neither calls a method nor has a value stand for themselves. -/
theorem isChain_append_cons_neutral (hv : t.kind ≠ .identifier) (hm : t.kind ≠ .method)
    (hc : t.kind ≠ .comparison .member) :
    (ts ++ t :: us).IsChain Neutral ↔ ts.IsChain Neutral ∧ us.IsChain Neutral := by
  rw [List.isChain_append, isChain_cons_neutral hv hc]
  constructor
  · exact fun h => ⟨h.1, h.2.1⟩
  · intro h
    refine ⟨h.1, h.2, fun x _ y hy => ?_⟩
    cases hy
    exact neutral_of_right hv hm

theorem isTrivia_of_kind {k : TokenKind} (ht : t.kind = k) (hk : k.isTrivia = false) :
    t.isTrivia = false := by
  rw [Token.isTrivia, ht, hk]

theorem neutral_atom (hg : t.kind.group = .value) :
    (Phrase.value (.atom t)).Neutral [t] := by
  have ht : t.isTrivia = false :=
    TokenKind.isTrivia_of_startsValue (TokenKind.startsValue_of_group hg)
  have hsig : significant [t] = [t] := significant_cons ht []
  refine ⟨by simp [hsig, Term.CallsFixed], t, by simp [hsig], ?_, Iff.rfl⟩
  exact TokenKind.ne_of_group hg nofun

/-- A token that opens a list and what follows it. -/
theorem neutral_opened {closer : TokenKind} (hv : t.kind ≠ .identifier)
    (hm : t.kind ≠ .comparison .member) (ht : t.isTrivia = false)
    (hc : closer = .closeBracket ∨ closer = .closeParen)
    (h : (Phrase.list closer items).Neutral ts) :
    ((significant (t :: ts)).IsChain Neutral ↔ Term.AllFixed items) ∧
      ∃ last, (significant (t :: ts)).getLast? = some last ∧
        last.kind ≠ .comparison .member ∧ ¬ last.IsVariable := by
  obtain ⟨hchain, last, hlast, hkind⟩ :=
    h (by rcases hc with rfl | rfl <;> rfl) (by rcases hc with rfl | rfl <;> nofun)
      (by rcases hc with rfl | rfl <;> nofun)
  rw [significant_cons ht, isChain_cons_neutral hv hm]
  refine ⟨hchain, last, by simp [List.getLast?_cons, hlast], ?_, fun hvar => ?_⟩
  · rw [hkind]
    rcases hc with rfl | rfl <;> nofun
  · have hid := hkind.symm.trans hvar.1
    rcases hc with rfl | rfl <;> cases hid

theorem neutral_method (hr : (Phrase.value receiver).Neutral us) (hg : Gap g)
    (ht : t.kind = .method) (h : (Phrase.list .closeParen items).Neutral ts) :
    (Phrase.value (.method receiver t items)).Neutral (us ++ g ++ t :: ts) := by
  obtain ⟨hus, last, hlast, _, hvar⟩ := hr
  have htriv : t.isTrivia = false := isTrivia_of_kind ht rfl
  obtain ⟨hts, last', hlast', hin, hfixed⟩ :=
    neutral_opened (by simp [ht]) (by simp [ht]) htriv (.inr rfl) h
  have hsig : significant (us ++ g ++ t :: ts) = significant us ++ significant (t :: ts) := by
    simp [significant_gap hg]
  rw [Phrase.Neutral, hsig]
  refine ⟨?_, last', by simp [List.getLast?_append, hlast'], hin, by simp [Term.IsVariable, hfixed]⟩
  have hjoin : (∀ x ∈ (significant us).getLast?, ∀ y ∈ (significant (t :: ts)).head?, Neutral x y) ↔
      ¬ receiver.IsVariable := by
    rw [hlast, significant_cons htriv, ← hvar]
    simp [Neutral, Token.IsVariable, ht]
  rw [List.isChain_append, hus, hts, hjoin, Term.CallsFixed]
  constructor
  · rintro ⟨hc, ha, hn⟩
    exact ⟨hn, hc, ha⟩
  · rintro ⟨hn, hc, ha⟩
    exact ⟨hc, ha, hn⟩

theorem neutral_one (hg : Gap g) (h : (Phrase.value item).Neutral ts) :
    (Phrase.series [item]).Neutral (g ++ ts) := by
  simpa [Phrase.Neutral, significant_gap hg, Term.AllFixed] using h.1

theorem neutral_more (hts : (Phrase.series items).Neutral ts) (hg : Gap g)
    (ht : t.kind = .comma) (hg' : Gap g') (hus : (Phrase.value item).Neutral us) :
    (Phrase.series (items ++ [item])).Neutral (ts ++ g ++ t :: (g' ++ us)) := by
  have htriv : t.isTrivia = false := isTrivia_of_kind ht rfl
  have hitems : (significant ts).IsChain Neutral ↔ Term.AllFixed items := hts
  have hsig : significant (ts ++ g ++ t :: (g' ++ us)) =
      significant ts ++ t :: significant us := by
    simp [significant_gap hg, significant_gap hg', significant_cons htriv]
  rw [Phrase.Neutral, hsig, Term.allFixed_concat, ← hitems, ← hus.1]
  exact isChain_append_cons_neutral (by simp [ht]) (by simp [ht]) (by simp [ht])

theorem neutral_none (hg : Gap g) : (Phrase.list t.kind []).Neutral (g ++ [t]) := by
  intro ht _ _
  have hsig : significant (g ++ [t]) = [t] := by
    simp [significant_gap hg, significant_cons (show t.isTrivia = false from ht)]
  rw [hsig]
  exact ⟨by simp [Term.AllFixed], t, rfl, rfl⟩

theorem neutral_some (hts : (Phrase.series items).Neutral ts) (hg : Gap g) :
    (Phrase.list t.kind items).Neutral (ts ++ g ++ [t]) := by
  intro ht hi hm
  have hsig : significant (ts ++ g ++ [t]) = significant ts ++ [t] := by
    simp [significant_gap hg, significant_cons (show t.isTrivia = false from ht)]
  have hitems : (significant ts).IsChain Neutral ↔ Term.AllFixed items := hts
  rw [hsig]
  refine ⟨?_, t, by simp, rfl⟩
  rw [List.isChain_append, ← hitems]
  refine ⟨fun h => h.1, fun h => ⟨h, List.isChain_singleton t, fun x _ y hy => ?_⟩⟩
  cases hy
  exact neutral_of_right hi hm

theorem neutral_of_spells {phrase : Phrase} (h : Spells depth ts phrase) : phrase.Neutral ts := by
  induction h with
  | atom hg => exact neutral_atom hg
  | array ht _ ih =>
    obtain ⟨hchain, last, hlast, hin, hvar⟩ :=
      neutral_opened (by simp [ht]) (by simp [ht]) (isTrivia_of_kind ht rfl) (.inl rfl) ih
    exact ⟨hchain, last, hlast, hin, by simp [Term.IsVariable, hvar]⟩
  | function ht _ ih =>
    obtain ⟨hchain, last, hlast, hin, hvar⟩ :=
      neutral_opened (by simp [ht]) (by simp [ht]) (isTrivia_of_kind ht rfl) (.inr rfl) ih
    exact ⟨hchain, last, hlast, hin, by simp [Term.IsVariable, hvar]⟩
  | method _ hg ht _ ihr ihl => exact neutral_method ihr hg ht ihl
  | one hg _ ih => exact neutral_one hg ih
  | more _ hg ht hg' _ ihts ihus => exact neutral_more ihts hg ht hg' ihus
  | none hg => exact neutral_none hg
  | some _ hg ih => exact neutral_some ih hg

end

/-- The first token of a part of a rule. -/
def Piece.first : Piece → Token
  | other t => t
  | value t _ => t

/-- Of two parts of a rule, the first does not look for an array in the second that starts with a
variable. -/
def Piece.Neutral (p q : Piece) : Prop :=
  ¬ (p.first.kind = .comparison .member ∧ q.first.IsVariable)

/-- The parts of a rule that do not only separate others. -/
def Piece.significant (pieces : List Piece) : List Piece :=
  pieces.filter (!·.first.isTrivia)

section

variable {depth : Nat} {ts : List Token} {pieces : List Piece}

theorem Splits.head_significant (h : Splits depth ts pieces) :
    (Piece.significant pieces).head?.map Piece.first = (significant ts).head? := by
  induction h with
  | nil => rfl
  | @other t ts pieces _ _ ih =>
    cases ht : t.isTrivia with
    | true => simpa [Piece.significant, significant, Piece.first, ht] using ih
    | false => simp [Piece.significant, significant, Piece.first, ht]
  | @value t ts rest term pieces hterm _ _ _ =>
    obtain ⟨first, us, heq, hs⟩ := hterm.exists_first
    cases heq
    have ht : t.isTrivia = false := TokenKind.isTrivia_of_startsValue hs
    simp [Piece.significant, significant, Piece.first, ht]

theorem kind_ne_method_of_callFollows {t : Token} (h : callFollows ts = false)
    (ht : (significant ts).head? = some t) : t.kind ≠ .method := by
  rw [significant, List.head?_filter] at ht
  simpa [callFollows, ht] using h

/-- The tokens of a rule are neutral to each other if no method is called on a variable, and no
membership looks into one. -/
theorem Splits.neutral_iff (h : Splits depth ts pieces) :
    (significant ts).IsChain Neutral ↔
      (∀ first term, .value first term ∈ pieces → term.CallsFixed) ∧
        (Piece.significant pieces).IsChain Piece.Neutral := by
  induction h with
  | nil => simp [significant, Piece.significant]
  | @other t ts pieces hs hsplit ih =>
    cases ht : t.isTrivia with
    | true => simpa [Piece.significant, significant, Piece.first, ht] using ih
    | false =>
      have hsig : Piece.significant (.other t :: pieces) =
          .other t :: Piece.significant pieces := by
        simp [Piece.significant, Piece.first, ht]
      have hnext : (∀ u ∈ (significant ts).head?, Neutral t u) ↔
          ∀ q ∈ (Piece.significant pieces).head?, Piece.Neutral (.other t) q := by
        have hid : t.kind ≠ .identifier := (TokenKind.ne_of_startsValue rfl hs).symm
        rw [← hsplit.head_significant]
        simp [Neutral, Piece.Neutral, Piece.first, Token.IsVariable, hid]
      rw [significant_cons ht, hsig, List.isChain_cons, List.isChain_cons, ih, hnext]
      simp only [List.mem_cons, reduceCtorEq, false_or]
      exact and_left_comm
  | @value t ts rest term pieces hterm hrest hsplit ih =>
    obtain ⟨hchain, last, hlast, hin, hvar⟩ := neutral_of_spells hterm
    obtain ⟨first, us, heq, hs⟩ := hterm.exists_first
    cases heq
    have ht : t.isTrivia = false := TokenKind.isTrivia_of_startsValue hs
    have hsig : Piece.significant (.value t term :: pieces) =
        .value t term :: Piece.significant pieces := by
      simp [Piece.significant, Piece.first, ht]
    have hmember : t.kind ≠ .comparison .member := TokenKind.ne_of_startsValue hs rfl
    have hcross : ∀ x ∈ (significant (t :: ts)).getLast?, ∀ y ∈ (significant rest).head?,
        Neutral x y := by
      intro x hx y hy
      cases hlast.symm.trans hx
      exact ⟨fun h => kind_ne_method_of_callFollows hrest hy h.2, fun h => hin h.1⟩
    have hnext : ∀ q ∈ (Piece.significant pieces).head?, Piece.Neutral (.value t term) q :=
      fun q _ h => hmember h.1
    rw [significant_append, List.isChain_append, hsig, List.isChain_cons, hchain, ih]
    have hall : (∀ first term', .value first term' ∈ Piece.value t term :: pieces →
        term'.CallsFixed) ↔ term.CallsFixed ∧
          ∀ first term', .value first term' ∈ pieces → term'.CallsFixed := by
      constructor
      · exact fun h => ⟨h t term (by simp), fun first term' hm => h first term' (by simp [hm])⟩
      · rintro ⟨hterm, hrest⟩ first term' hm
        rcases List.mem_cons.mp hm with heq | hm
        · cases heq
          exact hterm
        · exact hrest first term' hm
    rw [hall]
    constructor
    · rintro ⟨hc, ⟨ha, hp⟩, _⟩
      exact ⟨⟨hc, ha⟩, hnext, hp⟩
    · rintro ⟨⟨hc, ha⟩, _, hp⟩
      exact ⟨hc, ⟨ha, hp⟩, hcross⟩

end

end Verdict
