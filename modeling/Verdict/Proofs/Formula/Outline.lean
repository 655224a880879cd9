import Verdict.Proofs.Formula.Acceptance
import Verdict.Proofs.Formula.Exchange

namespace Verdict

/-- A text with one character in the place of every digit. -/
def blotted (mark : Char) (s : String) : String :=
  String.ofList (s.toList.map fun c => if c = '0' ∨ c = '1' then mark else c)

namespace Formula

/-- A formula without its verdicts. -/
def outline : Formula → Formula
  | empty => empty
  | leaf _ => leaf false
  | group f => group f.outline
  | binary op left right => binary op left.outline right.outline

theorem blotted_text_outline (mark : Char) (f : Formula) :
    blotted mark f.outline.text = blotted mark f.text := by
  unfold blotted text
  rw [String.toList_ofList, String.toList_ofList]
  congr 1
  induction f with
  | empty => rfl
  | leaf holds => cases holds <;> simp [outline, digit]
  | group f ih => simp [outline, ih]
  | binary op left right ihl ihr => simp [outline, ihl, ihr]

end Formula

/-- A frame without the verdicts of its formula. -/
def Frame.outline (frame : Frame) : Frame :=
  { frame with formula := frame.formula.map Formula.outline }

theorem Frame.outline_push {frame frame' : Frame} {operand operand' : Formula}
    (hf : frame'.outline = frame.outline) (ho : operand'.outline = operand.outline) :
    (frame'.push operand').outline = (frame.push operand).outline := by
  obtain ⟨formula, pending⟩ := frame
  obtain ⟨formula', pending'⟩ := frame'
  simp only [outline, Frame.mk.injEq] at hf
  obtain ⟨hformula, rfl⟩ := hf
  cases formula <;> cases formula' <;> cases pending' <;>
    simp_all [push, outline, Formula.join, Formula.outline]

namespace FormulaBuilder

/-- Two builders that have read the same, but for values and verdicts. -/
structure Twins (b c : FormulaBuilder) : Prop where
  values : c.values.length = b.values.length
  operator : c.operator = b.operator
  operatorRequired : c.operatorRequired = b.operatorRequired
  conditionIncomplete : c.conditionIncomplete = b.conditionIncomplete
  opened : c.opened = b.opened
  closed : c.closed = b.closed
  frames : c.frames.map Frame.outline = b.frames.map Frame.outline
  maxDepth : c.maxDepth = b.maxDepth

variable {b c after : FormulaBuilder} {t u : Token}

namespace Twins

theorem refl (b : FormulaBuilder) : Twins b b := ⟨rfl, rfl, rfl, rfl, rfl, rfl, rfl, rfl⟩

theorem values_nil (h : Twins b c) (hv : b.values = []) : c.values = [] := by
  have hlength := h.values
  rw [hv] at hlength
  exact List.eq_nil_of_length_eq_zero hlength

theorem frames_nil (h : Twins b c) (hb : b.frames = []) : c.frames = [] := by
  have hframes := h.frames
  simpa [hb] using hframes

theorem frames_cons (h : Twins b c) {frame : Frame} {frames : List Frame}
    (hb : b.frames = frame :: frames) :
    ∃ frame' frames', c.frames = frame' :: frames' ∧ frame'.outline = frame.outline ∧
      frames'.map Frame.outline = frames.map Frame.outline := by
  have hframes := h.frames
  rwa [hb, List.map_cons, List.map_eq_cons_iff] at hframes

theorem pushOperand (h : Twins b c) {f g : Formula} (hf : g.outline = f.outline) :
    Twins (b.pushOperand f) (c.pushOperand g) := by
  rw [pushOperand_eq, pushOperand_eq]
  refine ⟨h.values, h.operator, h.operatorRequired, h.conditionIncomplete, h.opened, h.closed, ?_,
    h.maxDepth⟩
  cases hb : b.frames with
  | nil => simp [h.frames_nil hb]
  | cons frame frames =>
    obtain ⟨frame', frames', hc, hframe, hrest⟩ := h.frames_cons hb
    simp [hc, hrest, Frame.outline_push hframe hf]

theorem held (h : Twins b c) (v w : Value) : Twins (b.held v) (c.held w) :=
  ⟨by simp [FormulaBuilder.held, h.values], h.operator, rfl, rfl, h.opened, h.closed, h.frames,
    h.maxDepth⟩

theorem decided (h : Twins b c) (holds holds' : Bool) :
    Twins (b.decided holds) (c.decided holds') := by
  have hread : Twins
      { b with values := [], operator := none, operatorRequired := true, conditionIncomplete := false }
      { c with values := [], operator := none, operatorRequired := true,
               conditionIncomplete := false } :=
    ⟨rfl, rfl, rfl, rfl, h.opened, h.closed, h.frames, h.maxDepth⟩
  exact hread.pushOperand rfl

theorem joined (h : Twins b c) (op : Connective) : Twins (b.joined op) (c.joined op) := by
  refine ⟨h.values, h.operator, rfl, rfl, h.opened, h.closed, ?_, h.maxDepth⟩
  cases hb : b.frames with
  | nil => simp [FormulaBuilder.joined, hb, h.frames_nil hb]
  | cons frame frames =>
    obtain ⟨frame', frames', hc, hframe, hrest⟩ := h.frames_cons hb
    simp only [Frame.outline, Frame.mk.injEq] at hframe
    simp [FormulaBuilder.joined, hb, hc, hrest, Frame.outline, hframe.1]

end Twins

/-- A membership without an array. -/
def NoArray (e : RuleError) : Prop := ∃ typeName, e = .badType (.expectedArray typeName) none

theorem twins_comparison (h : Twins b c) {left : Value} {op : Comparison} {holds : Bool}
    (hu : u.kind.group = .value) (hub : u.IsBound) (hr : b.operatorRequired = false)
    (hl : b.values = [left]) (ho : b.operator = some op) :
    (∃ after', c.step u = .ok after' ∧ Twins (b.decided holds) after') ∨
      ∃ e, c.step u = .error e ∧ NoArray e := by
  have hlength := h.values
  rw [hl, List.length_singleton, List.length_eq_one_iff] at hlength
  obtain ⟨left', hl'⟩ := hlength
  have ho' := h.operator.trans ho
  have hvalue : valueOf u = .ok u.operand := valueOf_eq_ok_iff.mpr ⟨hub, rfl⟩
  rw [step_value_ok hu (h.operatorRequired.trans hr) hvalue]
  cases hh : op.holds? left' u.operand with
  | some holds' => exact .inl ⟨_, reduce_held hl' ho' hh, h.decided holds holds'⟩
  | none => exact .inr ⟨_, reduce_held_error hl' ho' hh, _, rfl⟩

theorem twins_closing (h : Twins b c) {inner : Formula} {pending : Option Connective}
    {frames : List Frame} (hk : t.kind = .closeParen) (hcl : b.closed < b.opened)
    (ho : b.operator = none) (hv : b.values = []) (hi : b.conditionIncomplete = false)
    (hf : b.frames = ⟨some inner, pending⟩ :: frames) :
    ∃ after', Move c t after' ∧
      Twins (pushOperand { b with closed := b.closed + 1, frames } (.group inner)) after' := by
  obtain ⟨⟨formula', pending'⟩, frames', hc, hframe, hrest⟩ := h.frames_cons hf
  simp only [Frame.outline, Frame.mk.injEq, Option.map_some, Option.map_eq_some_iff] at hframe
  obtain ⟨⟨inner', rfl, hinner⟩, rfl⟩ := hframe
  have hopen : c.closed < c.opened := by
    rw [h.closed, h.opened]
    exact hcl
  refine ⟨_, .closing hk hopen (h.operator.trans ho) (h.values_nil hv)
    (h.conditionIncomplete.trans hi) hc, ?_⟩
  have hread : Twins { b with closed := b.closed + 1, frames }
      { c with closed := c.closed + 1, frames := frames' } :=
    ⟨h.values, h.operator, h.operatorRequired, h.conditionIncomplete, h.opened,
      congrArg (· + 1) h.closed, hrest, h.maxDepth⟩
  exact hread.pushOperand (by rw [Formula.outline, Formula.outline, hinner])

/-- What one builder can read, its twin can read with another value in its place, unless this is a
membership that then has no array. -/
theorem Move.twins (hm : Move b t after) (h : Twins b c) (hx : u.Exchanges t) :
    (∃ after', c.step u = .ok after' ∧ Twins after after') ∨
      ∃ e, c.step u = .error e ∧ NoArray e := by
  have hsame : ∀ {k : TokenKind}, t.kind = k → k.group ≠ .value → u = t := by
    rintro k rfl hg
    exact hx.2 hg
  cases hm with
  | trivia ht =>
    have hg : t.kind.group ≠ .value := TokenKind.group_ne_value_of_isTrivia ht
    exact .inl ⟨c, step_of_move (.trivia (hx.2 hg ▸ ht)), h⟩
  | @value v hg hr _ hn =>
    obtain ⟨hu, hub⟩ := hx.1 hg
    have hn' : ∀ left op, c.values = [left] → c.operator ≠ some op := by
      intro left op hl ho
      have hlength := h.values
      rw [hl, eq_comm, List.length_singleton, List.length_eq_one_iff] at hlength
      obtain ⟨left', hl'⟩ := hlength
      exact hn left' op hl' (h.operator.symm.trans ho)
    have hvalue : valueOf u = .ok u.operand := valueOf_eq_ok_iff.mpr ⟨hub, rfl⟩
    exact .inl ⟨_, step_of_move (.value hu (h.operatorRequired.trans hr) hvalue hn'), h.held v _⟩
  | comparison hg hr _ hl ho _ =>
    obtain ⟨hu, hub⟩ := hx.1 hg
    exact twins_comparison h hu hub hr hl ho
  | operator hk ho hv =>
    rw [hsame hk nofun]
    have hv' : c.values ≠ [] := by
      rw [← List.length_pos_iff, h.values]
      exact List.length_pos_iff.mpr hv
    refine .inl ⟨_, step_of_move (.operator hk (h.operator.trans ho) hv'), ?_⟩
    exact ⟨h.values, rfl, rfl, h.conditionIncomplete, h.opened, h.closed, h.frames, h.maxDepth⟩
  | @connective op hk hr hv =>
    rw [hsame hk nofun]
    have hm := Move.connective hk (h.operatorRequired.trans hr) (h.values_nil hv)
    exact .inl ⟨_, step_of_move hm, h.joined op⟩
  | opening hk hr hv hd =>
    rw [hsame hk nofun]
    have hlength : c.frames.length = b.frames.length := by
      simpa using congrArg List.length h.frames
    have hd' : c.frames.length ≤ c.maxDepth := by
      rw [hlength, h.maxDepth]
      exact hd
    have hm := Move.opening hk (h.operatorRequired.trans hr) (h.values_nil hv) hd'
    refine .inl ⟨_, step_of_move hm, ?_⟩
    exact ⟨h.values, h.operator, h.operatorRequired, h.conditionIncomplete,
      congrArg (· + 1) h.opened, h.closed, by simp [h.frames], h.maxDepth⟩
  | closing hk hcl ho hv hi hf =>
    rw [hsame hk nofun]
    obtain ⟨after', hm, htwins⟩ := twins_closing h hk hcl ho hv hi hf
    exact .inl ⟨after', step_of_move hm, htwins⟩

theorem twins_run {ts us : List Token} (h : Twins b c) (hx : List.Forall₂ Token.Exchanges us ts)
    (hrun : ts.foldlM step b = .ok after) :
    (∃ after', us.foldlM step c = .ok after' ∧ Twins after after') ∨
      ∃ e, us.foldlM step c = .error e ∧ NoArray e := by
  induction hx generalizing b c with
  | nil =>
    cases Except.ok.inj hrun
    exact .inl ⟨c, rfl, h⟩
  | @cons u t us ts hut _ ih =>
    cases hb : b.step t with
    | error e =>
      rw [List.foldlM_cons, hb] at hrun
      cases hrun
    | ok next =>
      rw [foldlM_cons_ok hb] at hrun
      rcases (move_of_step hb).twins h hut with ⟨next', hc, hnext⟩ | ⟨e, hc, he⟩
      · rw [foldlM_cons_ok hc]
        exact ih hnext hrun
      · refine .inr ⟨e, ?_, he⟩
        rw [List.foldlM_cons, hc]
        rfl

theorem Twins.finish (h : Twins b c) {f : Formula} (hf : b.finish = .ok f) :
    ∃ g, c.finish = .ok g ∧ g.outline = f.outline := by
  obtain ⟨hi, hcl, ho, hv, rfl⟩ := finish_eq_ok_iff.mp hf
  have hclosed : c.opened ≤ c.closed := by
    rw [h.closed, h.opened]
    exact hcl
  refine ⟨_, finish_eq_ok_iff.mpr ⟨h.conditionIncomplete.trans hi, hclosed, h.operator.trans ho,
    h.values_nil hv, rfl⟩, ?_⟩
  cases hb : b.frames with
  | nil => simp [h.frames_nil hb]
  | cons frame frames =>
    obtain ⟨frame', frames', hc, hframe, _⟩ := h.frames_cons hb
    have hformula : frame'.formula.map Formula.outline = frame.formula.map Formula.outline :=
      congrArg Frame.formula hframe
    rw [hc]
    cases hf : frame.formula <;> cases hf' : frame'.formula <;> simp_all

end FormulaBuilder

namespace Formula

open FormulaBuilder

variable {maxDepth : Nat} {operands : Operands} {tokens : List Token} {f : Formula}

theorem ofTokens_twins (h : ofOperands maxDepth operands = .ok f)
    (hx : List.Forall₂ Token.Exchanges tokens operands.tokens) :
    (∃ g, ofTokens maxDepth tokens = .ok g ∧ g.outline = f.outline) ∨
      ∃ e, ofTokens maxDepth tokens = .error e ∧ NoArray e := by
  obtain ⟨_, b, hrun, hfinish⟩ := ofOperands_eq_ok_iff.mp h
  rcases twins_run (Twins.refl (.start maxDepth)) hx hrun with ⟨c, hc, hbc⟩ | ⟨e, hc, he⟩
  · obtain ⟨g, hg, houtline⟩ := hbc.finish hfinish
    exact .inl ⟨g, ofOperands_eq_ok_iff.mpr ⟨rfl, c, hc, hg⟩, houtline⟩
  · refine .inr ⟨e, ?_, he⟩
    rw [ofTokens, ofOperands, hc]
    rfl

/-- If the operands are worked out no further than a part of the tokens, then the error is that of a
membership in this part, or the one that ended the working out. -/
theorem ofOperands_cut (h : ofOperands maxDepth operands = .ok f) {read : List Token}
    (hread : read <+: operands.tokens) (hx : List.Forall₂ Token.Exchanges tokens read)
    (e : RuleError) :
    ofOperands maxDepth ⟨tokens, some e⟩ = .error e ∨
      ∃ e', ofOperands maxDepth ⟨tokens, some e⟩ = .error e' ∧ NoArray e' := by
  obtain ⟨_, b, hrun, _⟩ := ofOperands_eq_ok_iff.mp h
  obtain ⟨rest, hrest⟩ := hread
  rw [← hrest, List.foldlM_append] at hrun
  cases hpart : read.foldlM step (.start maxDepth) with
  | error e =>
    rw [hpart] at hrun
    cases hrun
  | ok middle =>
    rcases twins_run (Twins.refl (.start maxDepth)) hx hpart with ⟨c, hc, _⟩ | ⟨e', hc, he'⟩
    · refine .inl ?_
      rw [ofOperands, hc]
      rfl
    · refine .inr ⟨e', ?_, he'⟩
      rw [ofOperands, hc]
      rfl

end Formula

end Verdict
