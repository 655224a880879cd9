import Mathlib.Data.List.Chain
import Mathlib.Data.List.Forall2
import Verdict.Proofs.Formula.Grammar

namespace Verdict

/-- After a membership, an array comes next. -/
def MemberArray (a b : Token) : Prop :=
  a.kind = .comparison .member → ∃ items, b.operand = .array items

/-- A token is the same as another, or both are values. -/
def Token.Exchanges (b a : Token) : Prop :=
  (a.kind.group = .value → b.kind.group = .value ∧ b.IsBound) ∧ (a.kind.group ≠ .value → b = a)

variable {part : RulePart} {depth : Nat} {as bs : List Token}

theorem memberArray_of_kind {a b : Token} {k : TokenKind} (ha : a.kind = k)
    (hk : k ≠ .comparison .member) : MemberArray a b :=
  fun h => absurd (ha.symm.trans h) hk

/-- In a rule, every membership has its array, and no part ends with one. -/
theorem RulePart.Derives.memberArray (h : part.Derives depth as) :
    as.IsChain MemberArray ∧
      ∃ last, as.getLast? = some last ∧ last.kind ≠ .comparison .member := by
  induction h with
  | @comparison depth left op right c hl _ ho hr _ hc =>
    have hvalue : ∀ {t : Token}, t.kind.group = .value → t.kind ≠ .comparison .member :=
      fun ht => TokenKind.ne_of_group ht nofun
    refine ⟨?_, right, rfl, hvalue hr⟩
    simp only [List.isChain_cons_cons, List.isChain_singleton, and_true]
    refine ⟨fun h => absurd h (hvalue hl), fun h => hc ?_⟩
    cases ho.symm.trans h
    rfl
  | @group depth opener closer ts ho _ hc ih =>
    obtain ⟨hchain, last, hlast, hkind⟩ := ih
    refine ⟨?_, closer, by simp [List.getLast?_cons], by simp [hc]⟩
    rw [List.isChain_cons, List.isChain_append]
    refine ⟨fun _ _ => memberArray_of_kind ho nofun, hchain, List.isChain_singleton closer, ?_⟩
    intro x hx y _
    cases hlast.symm.trans hx
    exact fun h => absurd h hkind
  | single _ ih => exact ih
  | @join depth t op ts us _ ht _ ihc iho =>
    obtain ⟨hchain, last, hlast, hkind⟩ := ihc
    obtain ⟨hchain', last', hlast', hkind'⟩ := iho
    refine ⟨?_, last', by simp [List.getLast?_append, List.getLast?_cons, hlast'], hkind'⟩
    rw [List.isChain_append, List.isChain_cons]
    refine ⟨hchain, ⟨fun _ _ => memberArray_of_kind ht nofun, hchain'⟩, ?_⟩
    intro x hx y _
    cases hlast.symm.trans hx
    exact fun h => absurd h hkind

theorem exists_append_of_forall₂ {α β : Type} {R : α → β → Prop} {u : List α} {l l' : List β}
    (h : List.Forall₂ R u (l ++ l')) :
    ∃ v v', u = v ++ v' ∧ List.Forall₂ R v l ∧ List.Forall₂ R v' l' :=
  ⟨_, _, (List.take_append_drop l.length u).symm, List.forall₂_take_append u l l' h,
    List.forall₂_drop_append u l l' h⟩

theorem RulePart.Derives.exchange (h : part.Derives depth as)
    (hx : List.Forall₂ Token.Exchanges bs as) (hb : bs.IsChain MemberArray) :
    part.Derives depth bs := by
  have hsame : ∀ {b a : Token} {k : TokenKind}, b.Exchanges a → a.kind = k → k.group ≠ .value →
      b.kind = k := by
    rintro b a k hba rfl hk
    rw [hba.2 hk]
  induction h generalizing bs with
  | @comparison depth left op right c hl _ ho hr _ hc =>
    simp only [List.forall₂_cons_right_iff, List.forall₂_nil_right_iff] at hx
    obtain ⟨left', _, hleft, ⟨op', _, hop, ⟨right', _, hright, rfl, rfl⟩, rfl⟩, rfl⟩ := hx
    have ho' : op'.kind = .comparison c := hsame hop ho nofun
    simp only [List.isChain_cons_cons] at hb
    refine .comparison (hleft.1 hl).1 (hleft.1 hl).2 ho' (hright.1 hr).1 (hright.1 hr).2 ?_
    rintro rfl
    exact hb.2.1 ho'
  | @group depth opener closer ts ho _ hc ih =>
    simp only [List.forall₂_cons_right_iff] at hx
    obtain ⟨opener', us, hopener, hus, rfl⟩ := hx
    obtain ⟨inner, ending, rfl, hinner, hending⟩ := exists_append_of_forall₂ hus
    simp only [List.forall₂_cons_right_iff, List.forall₂_nil_right_iff] at hending
    obtain ⟨closer', _, hcloser, rfl, rfl⟩ := hending
    rw [List.isChain_cons, List.isChain_append] at hb
    exact .group (hsame hopener ho nofun) (ih hinner hb.2.1) (hsame hcloser hc nofun)
  | single _ ih => exact .single (ih hx hb)
  | @join depth t op ts us _ ht _ ihc iho =>
    obtain ⟨first, rest, rfl, hfirst, hrest⟩ := exists_append_of_forall₂ hx
    simp only [List.forall₂_cons_right_iff] at hrest
    obtain ⟨t', last, ht', hlast, rfl⟩ := hrest
    rw [List.isChain_append, List.isChain_cons] at hb
    exact .join (ihc hfirst hb.1) (hsame ht' ht nofun) (iho hlast hb.2.1.2)

theorem IsRule.memberArray {depth : Nat} {ts : List Token} (h : IsRule depth ts) :
    ts.IsChain MemberArray := by
  rcases h with rfl | h
  · exact List.isChain_nil
  · exact h.memberArray.1

theorem IsRule.exchange {depth : Nat} {as bs : List Token} (h : IsRule depth as)
    (hx : List.Forall₂ Token.Exchanges bs as) (hb : bs.IsChain MemberArray) : IsRule depth bs := by
  rcases h with rfl | h
  · cases hx
    exact .inl rfl
  · exact .inr (h.exchange hx hb)

end Verdict
