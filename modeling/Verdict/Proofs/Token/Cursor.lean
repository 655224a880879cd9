import Verdict.Proofs.Operands.Spelling
import Verdict.Token.Cursor

namespace Verdict.Cursor

/-- What a cursor can be asked. -/
inductive Call where
  | next
  | peek
  | peekSignificant
  | nextSignificant
  | mark
  | reset (position : Nat)
  deriving DecidableEq, Repr

/-- Whether a call sends the cursor to a place that it names. -/
def Call.isReset : Call → Bool
  | reset _ => true
  | next | peek | peekSignificant | nextSignificant | mark => false

/-- What a cursor answers. -/
inductive Answer where
  /-- The token that the cursor has moved past, if one was left. -/
  | taken (t : Option Token)
  /-- The token that lies ahead, if one is left. -/
  | ahead (t : Option Token)
  | marked (position : Nat)
  | moved

/-- The token that an answer gives away, if it does. -/
def Answer.given : Answer → List Token
  | taken t => t.toList
  | ahead _ | marked _ | moved => []

/-- The answer to a call, and the cursor after it. -/
def call (cursor : Cursor) : Call → Answer × Cursor
  | .next => (.taken cursor.next?.1, cursor.next?.2)
  | .peek => (.ahead cursor.peek?, cursor)
  | .peekSignificant => (.ahead cursor.peekSignificant?, cursor)
  | .nextSignificant => (.taken cursor.nextSignificant?.1, cursor.nextSignificant?.2)
  | .mark => (.marked cursor.position, cursor)
  | .reset position => (.moved, cursor.reset position)

/-- The answers to calls, one after another. -/
def answers (cursor : Cursor) : List Call → List Answer
  | [] => []
  | c :: calls => (cursor.call c).1 :: (cursor.call c).2.answers calls

/-- The cursor after calls, one after another. -/
def run (cursor : Cursor) : List Call → Cursor
  | [] => cursor
  | c :: calls => (cursor.call c).2.run calls

/-- The tokens that calls give away. -/
def given (cursor : Cursor) (calls : List Call) : List Token :=
  (cursor.answers calls).flatMap Answer.given

/-- The tokens after the cursor. -/
def rest (cursor : Cursor) : List Token := cursor.tokens.drop cursor.position

/-- A cursor stands before one of these tokens, or at their end. -/
structure StandsIn (cursor : Cursor) (tokens : List Token) : Prop where
  tokens_eq : cursor.tokens = tokens
  position_le : cursor.position ≤ tokens.length

/-- A cursor moves past just these tokens. -/
structure Passes (cursor : Cursor) (passed : List Token) (after : Cursor) : Prop where
  after_eq : after = { cursor with position := cursor.position + passed.length }
  rest_eq : cursor.rest = passed ++ after.rest

/-- A cursor moves just past a token that does not only separate others, over ones that do, or to
the end if no such token is left. -/
inductive Skips (cursor : Cursor) : Option Token → Cursor → Prop
  | found {gap : List Token} {t : Token} {after : Cursor} : Gap gap → t.isTrivia = false →
    cursor.Passes (gap ++ [t]) after → Skips cursor (some t) after
  | ended {gap : List Token} {after : Cursor} : Gap gap → cursor.Passes gap after →
    after.position = after.tokens.length → Skips cursor none after

/-- Tokens that are given away while a cursor moves past some: all of those, except for tokens that
only separate others. -/
structure GivenOf (given passed : List Token) : Prop where
  sublist : given.Sublist passed
  significant_eq : significant given = significant passed

variable {cursor middle after : Cursor} {tokens ts us passed passed' : List Token} {t : Token}
  {c : Call} {calls : List Call}

theorem run_append (cursor : Cursor) (calls later : List Call) :
    cursor.run (calls ++ later) = (cursor.run calls).run later := by
  induction calls generalizing cursor with
  | nil => rfl
  | cons c calls ih => exact ih (cursor.call c).2

theorem given_cons (cursor : Cursor) (c : Call) (calls : List Call) :
    cursor.given (c :: calls) = (cursor.call c).1.given ++ (cursor.call c).2.given calls := rfl

theorem Passes.refl (cursor : Cursor) : cursor.Passes [] cursor := ⟨rfl, rfl⟩

theorem Passes.trans (h : cursor.Passes ts middle) (h' : middle.Passes us after) :
    cursor.Passes (ts ++ us) after := by
  refine ⟨?_, ?_⟩
  · rw [h'.after_eq, h.after_eq, List.length_append, Nat.add_assoc]
  · rw [h.rest_eq, h'.rest_eq, List.append_assoc]

theorem Passes.of_append (h : cursor.Passes (ts ++ us) after) (h' : cursor.Passes ts middle) :
    middle.Passes us after := by
  refine ⟨?_, ?_⟩
  · rw [h.after_eq, h'.after_eq, List.length_append, Nat.add_assoc]
  · have hrest := h'.rest_eq
    rw [h.rest_eq, List.append_assoc] at hrest
    exact (List.append_cancel_left hrest).symm

theorem StandsIn.passes (h : cursor.StandsIn tokens) (hp : cursor.Passes passed after) :
    after.StandsIn tokens := by
  have hle := h.position_le
  have hrest := congrArg List.length hp.rest_eq
  rw [rest, h.tokens_eq, List.length_drop, List.length_append] at hrest
  rw [hp.after_eq]
  exact ⟨h.tokens_eq, by dsimp only; omega⟩

theorem StandsIn.reset (h : cursor.StandsIn tokens) (position : Nat) :
    (cursor.reset position).StandsIn tokens :=
  ⟨h.tokens_eq, h.tokens_eq ▸ Nat.min_le_right position cursor.tokens.length⟩

/-- A cursor that goes back to its place is the same again. -/
theorem StandsIn.reset_position (h : cursor.StandsIn tokens) (h' : after.StandsIn tokens) :
    after.reset cursor.position = cursor := by
  obtain ⟨rfl, hle⟩ := h
  rw [Cursor.reset, h'.tokens_eq, Nat.min_eq_left hle]

theorem next?_of_nil (h : cursor.rest = []) : cursor.next? = (none, cursor) := by
  have hpeek : cursor.peek? = none := by rw [peek?, ← List.head?_drop, ← rest, h, List.head?_nil]
  rw [next?, hpeek]

theorem next?_of_cons (h : cursor.rest = t :: ts) :
    ∃ after, cursor.next? = (some t, after) ∧ cursor.Passes [t] after := by
  have hpeek : cursor.peek? = some t := by rw [peek?, ← List.head?_drop, ← rest, h, List.head?_cons]
  refine ⟨{ cursor with position := cursor.position + 1 }, by rw [next?, hpeek], rfl, ?_⟩
  have htail : cursor.tokens.drop (cursor.position + 1) = ts := by
    rw [← List.tail_drop, ← rest, h, List.tail_cons]
  rw [h, rest, htail, List.singleton_append]

theorem passes_next (cursor : Cursor) : cursor.Passes cursor.next?.1.toList cursor.next?.2 := by
  cases hrest : cursor.rest with
  | nil =>
    rw [next?_of_nil hrest]
    exact .refl cursor
  | cons t ts =>
    obtain ⟨after, hnext, hpass⟩ := next?_of_cons hrest
    rw [hnext]
    exact hpass

theorem peekSignificant?_eq (cursor : Cursor) :
    cursor.peekSignificant? = cursor.rest.find? (!·.isTrivia) := rfl

theorem StandsIn.skips_of_nil (h : cursor.StandsIn tokens) (hrest : cursor.rest = []) :
    cursor.peekSignificant? = none ∧ cursor.Skips none cursor := by
  have hle := h.position_le
  have hlength := List.drop_eq_nil_iff.mp hrest
  rw [← h.tokens_eq] at hle
  refine ⟨by rw [peekSignificant?_eq, hrest, List.find?_nil], ?_⟩
  exact .ended .nil (.refl cursor) (Nat.le_antisymm hle hlength)

theorem Skips.cons {found : Option Token} (ht : t.isTrivia = true) (hp : cursor.Passes [t] middle)
    (h : middle.Skips found after) : cursor.Skips found after := by
  cases h with
  | found hgap hfound hpass => exact .found (hgap.cons ht) hfound (hp.trans hpass)
  | ended hgap hpass hend => exact .ended (hgap.cons ht) (hp.trans hpass) hend

/-- To skip as many tokens as are left ends at the token that a look ahead shows. -/
theorem StandsIn.skips_skipTrivia {n : Nat} (h : cursor.StandsIn tokens)
    (hn : cursor.rest.length ≤ n) :
    (cursor.skipTrivia n).1 = cursor.peekSignificant? ∧
      cursor.Skips cursor.peekSignificant? (cursor.skipTrivia n).2 := by
  induction n generalizing cursor with
  | zero =>
    have hrest : cursor.rest = [] := List.length_eq_zero_iff.mp (Nat.le_zero.mp hn)
    obtain ⟨hnone, hskips⟩ := h.skips_of_nil hrest
    rw [hnone]
    exact ⟨rfl, hskips⟩
  | succ n ih =>
    rw [skipTrivia]
    cases hrest : cursor.rest with
    | nil =>
      obtain ⟨hnone, hskips⟩ := h.skips_of_nil hrest
      rw [next?_of_nil hrest, hnone]
      exact ⟨rfl, hskips⟩
    | cons t ts =>
      obtain ⟨middle, hnext, hpass⟩ := next?_of_cons hrest
      have htail : middle.rest = ts :=
        (List.cons.inj (hrest.symm.trans hpass.rest_eq)).2.symm
      rw [hnext]
      dsimp only
      cases ht : t.isTrivia with
      | false =>
        have hfound : cursor.peekSignificant? = some t := by
          rw [peekSignificant?_eq, hrest, List.find?_cons_of_pos (by simp [ht])]
        rw [hfound]
        exact ⟨rfl, .found .nil ht hpass⟩
      | true =>
        -- A look ahead from behind the skipped token shows the same.
        have hahead : cursor.peekSignificant? = middle.peekSignificant? := by
          rw [peekSignificant?_eq, peekSignificant?_eq, hrest, htail,
            List.find?_cons_of_neg (by simp [ht])]
        rw [hrest, List.length_cons] at hn
        obtain ⟨hfound, hskips⟩ := ih (h.passes hpass) (by rw [htail]; omega)
        rw [hahead]
        exact ⟨hfound, hskips.cons ht hpass⟩

theorem StandsIn.skips_nextSignificant (h : cursor.StandsIn tokens) :
    cursor.nextSignificant?.1 = cursor.peekSignificant? ∧
      cursor.Skips cursor.peekSignificant? cursor.nextSignificant?.2 :=
  h.skips_skipTrivia (Nat.le_of_eq List.length_drop)

theorem GivenOf.refl (ts : List Token) : GivenOf ts ts := ⟨.refl ts, rfl⟩

theorem GivenOf.append (h : GivenOf ts passed) (h' : GivenOf us passed') :
    GivenOf (ts ++ us) (passed ++ passed') :=
  ⟨h.sublist.append h'.sublist, by
    rw [significant_append, significant_append, h.significant_eq, h'.significant_eq]⟩

theorem Skips.exists_passes {found : Option Token} (h : cursor.Skips found after) :
    ∃ passed, cursor.Passes passed after ∧ GivenOf found.toList passed := by
  cases h with
  | @found gap t _ hgap _ hpass =>
    have hgiven : GivenOf [] gap := ⟨List.nil_sublist gap, (significant_gap hgap).symm⟩
    exact ⟨gap ++ [t], hpass, hgiven.append (.refl [t])⟩
  | @ended gap _ hgap hpass _ =>
    exact ⟨gap, hpass, List.nil_sublist gap, (significant_gap hgap).symm⟩

/-- What a call other than `reset` moves past, and what it gives away of that. -/
theorem StandsIn.call_passes (h : cursor.StandsIn tokens) (hc : c.isReset = false) :
    ∃ passed, cursor.Passes passed (cursor.call c).2 ∧ GivenOf (cursor.call c).1.given passed ∧
      (c ≠ .nextSignificant → (cursor.call c).1.given = passed) := by
  cases c with
  | next => exact ⟨_, passes_next cursor, .refl _, fun _ => rfl⟩
  | peek => exact ⟨[], .refl cursor, .refl [], fun _ => rfl⟩
  | peekSignificant => exact ⟨[], .refl cursor, .refl [], fun _ => rfl⟩
  | nextSignificant =>
    obtain ⟨heq, hskips⟩ := h.skips_nextSignificant
    obtain ⟨passed, hpass, hgiven⟩ := hskips.exists_passes
    rw [← heq] at hgiven
    exact ⟨passed, hpass, hgiven, fun hne => absurd rfl hne⟩
  | mark => exact ⟨[], .refl cursor, .refl [], fun _ => rfl⟩
  | reset position => cases hc

theorem StandsIn.call (h : cursor.StandsIn tokens) (c : Call) :
    (cursor.call c).2.StandsIn tokens := by
  cases hc : c.isReset with
  | false =>
    obtain ⟨passed, hpass, _⟩ := h.call_passes hc
    exact h.passes hpass
  | true =>
    cases c with
    | reset position => exact h.reset position
    | next | peek | peekSignificant | nextSignificant | mark => cases hc

theorem StandsIn.run (h : cursor.StandsIn tokens) (calls : List Call) :
    (cursor.run calls).StandsIn tokens := by
  induction calls generalizing cursor with
  | nil => exact h
  | cons c calls ih => exact ih (h.call c)

theorem standsIn_ofTokens (tokens : List Token) : (ofTokens tokens).StandsIn tokens :=
  ⟨rfl, Nat.zero_le tokens.length⟩

/-- What calls without `reset` move past, and what they give away of that. -/
theorem StandsIn.run_passes (h : cursor.StandsIn tokens)
    (hcalls : ∀ c ∈ calls, c.isReset = false) :
    ∃ passed, cursor.Passes passed (cursor.run calls) ∧ GivenOf (cursor.given calls) passed ∧
      (.nextSignificant ∉ calls → cursor.given calls = passed) := by
  induction calls generalizing cursor with
  | nil => exact ⟨[], .refl cursor, .refl [], fun _ => rfl⟩
  | cons c calls ih =>
    obtain ⟨hc, hcalls⟩ := List.forall_mem_cons.mp hcalls
    obtain ⟨first, hfirst, hgiven, hwhole⟩ := h.call_passes hc
    obtain ⟨passed, hpass, hgiven', hwhole'⟩ := ih (h.call c) hcalls
    refine ⟨first ++ passed, hfirst.trans hpass, hgiven.append hgiven', fun hnot => ?_⟩
    rw [given_cons, hwhole (List.ne_of_not_mem_cons hnot).symm,
      hwhole' (List.not_mem_of_not_mem_cons hnot)]

/-- Tokens that a cursor moves past are the ones that `next` gives, one after another. -/
theorem Passes.replay (h : cursor.Passes passed after) :
    cursor.answers (.replicate passed.length .next) = passed.map (fun t => .taken (some t)) ∧
      cursor.run (.replicate passed.length .next) = after := by
  induction passed generalizing cursor with
  | nil => exact ⟨rfl, h.after_eq.symm⟩
  | cons t passed ih =>
    obtain ⟨middle, hnext, hpass⟩ := next?_of_cons h.rest_eq
    have hcall : cursor.call .next = (.taken (some t), middle) := by rw [Cursor.call, hnext]
    have hrest : middle.Passes passed after := .of_append h hpass
    obtain ⟨hanswers, hrun⟩ := ih hrest
    rw [List.length_cons, List.replicate_succ, answers, Cursor.run, hcall]
    exact ⟨by rw [hanswers, List.map_cons], hrun⟩

/-- After any calls the cursor stands among its tokens; a look ahead shows the token that reading on
gives, which moves just past it; and a cursor that goes back to a mark answers all calls as before,
and gives one after another the tokens that it had moved past. -/
theorem lookahead_and_reset_agree (tokens : List Token) (calls : List Call) :
    let cursor := (ofTokens tokens).run calls
    cursor.StandsIn tokens ∧
    (∃ t, cursor.answers [.peekSignificant, .nextSignificant] = [.ahead t, .taken t] ∧
      cursor.Skips t (cursor.run [.peekSignificant, .nextSignificant])) ∧
    ∀ (place : Nat) (later : List Call), (cursor.call .mark).1 = .marked place →
      let back := cursor.run (later ++ [.reset place])
      back.answers later = cursor.answers later ∧
      ((∀ c ∈ later, c.isReset = false) → ∃ passed, GivenOf (cursor.given later) passed ∧
        (.nextSignificant ∉ later → cursor.given later = passed) ∧
        back.answers (.replicate passed.length .next) = passed.map (fun t => .taken (some t)) ∧
        back.run (.replicate passed.length .next) = cursor.run later) := by
  intro cursor
  have hstands : cursor.StandsIn tokens := (standsIn_ofTokens tokens).run calls
  obtain ⟨hfound, hskips⟩ := hstands.skips_nextSignificant
  refine ⟨hstands, ⟨cursor.peekSignificant?, ?_, hskips⟩, ?_⟩
  · change [Answer.ahead cursor.peekSignificant?, .taken cursor.nextSignificant?.1] = _
    rw [hfound]
  rintro place later ⟨⟩ back
  have hback : back = cursor := by
    change cursor.run (later ++ [.reset cursor.position]) = cursor
    rw [run_append]
    exact hstands.reset_position (hstands.run later)
  rw [hback]
  refine ⟨rfl, fun hlater => ?_⟩
  obtain ⟨passed, hpass, hgiven, hwhole⟩ := hstands.run_passes hlater
  exact ⟨passed, hgiven, hwhole, hpass.replay⟩

/-- A blank and the head of a call, read, looked at and read again. -/
theorem lookahead_and_reset_agree_blank :
    let name : Token := ⟨.identifier, "a", none, .start⟩
    let blank : Token := ⟨.space, "  ", none, .start⟩
    let head : Token := ⟨.method, ".b(", none, .start⟩
    let cursor := (ofTokens [name, blank, head]).run [.next]
    let later : List Call := [.peekSignificant, .next, .next, .next]
    (cursor.call .mark).1 = .marked 1 ∧ (∀ c ∈ later, c.isReset = false) ∧
      .nextSignificant ∉ later ∧
      (cursor.run (later ++ [.reset 1])).answers [.next, .next] =
        [.taken (some blank), .taken (some head)] := by
  intro name blank head cursor later
  have hplain : ∀ c ∈ later, c.isReset = false := by decide
  have hnot : .nextSignificant ∉ later := by decide
  obtain ⟨_, _, hback⟩ := lookahead_and_reset_agree [name, blank, head] [.next]
  obtain ⟨passed, _, hwhole, hanswers, _⟩ := (hback 1 later rfl).2 hplain
  have hpassed : [blank, head] = passed := hwhole hnot
  rw [← hpassed] at hanswers
  exact ⟨rfl, hplain, hnot, hanswers⟩

end Verdict.Cursor
