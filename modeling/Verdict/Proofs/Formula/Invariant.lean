import Verdict.Proofs.Formula.Acceptance
import Verdict.Proofs.Formula.Depth

namespace Verdict

namespace Frame

variable {frame : Frame}

/-- Nothing has been read in the frame, or a connective comes last. -/
def Awaits (frame : Frame) : Prop :=
  frame.formula.isSome = true ↔ frame.pending.isSome = true

/-- An operand becomes the formula of a frame, or the right side of the one that is there. -/
inductive Receives (operand : Formula) : Frame → Frame → Prop
  | first : Receives operand ⟨none, none⟩ ⟨some operand, none⟩
  | joined (left : Formula) (op : Connective) :
    Receives operand ⟨some left, some op⟩ ⟨some (left.join op operand), none⟩

/-- The innermost of the frames receives an operand. -/
inductive ReceivesFirst (operand : Formula) : List Frame → List Frame → Prop
  | intro {frame after : Frame} (outer : List Frame) : Receives operand frame after →
    ReceivesFirst operand (frame :: outer) (after :: outer)

theorem Waits.awaits {depth : Nat} {ts : List Token} (h : frame.Waits depth ts) : frame.Awaits := by
  cases h <;> simp [Awaits]

theorem Awaits.receives_push (h : frame.Awaits) (operand : Formula) :
    Receives operand frame (frame.push operand) := by
  obtain ⟨formula, pending⟩ := frame
  cases formula with
  | none =>
    cases pending with
    | none => exact .first
    | some op => cases h.mpr rfl
  | some left =>
    cases pending with
    | none => cases h.mp rfl
    | some op => exact .joined left op

end Frame

theorem Encloses.awaits {maxDepth depth : Nat} {frames : List Frame} {ts : List Token}
    (h : Encloses maxDepth depth frames ts) : ∀ frame ∈ frames, frame.Awaits := by
  induction h with
  | rule => exact nofun
  | paren _ hw _ ih => exact List.forall_mem_cons.mpr ⟨hw.awaits, ih⟩

namespace FormulaBuilder

variable {maxDepth : Nat} {b after : FormulaBuilder} {t : Token} {ts : List Token}

/-- What holds between two tokens. A value that is held belongs to a comparison that is not
complete, and only the innermost frame can be complete: the others wait for the operand that the
parenthesis in them is to become. -/
structure Sound (b : FormulaBuilder) : Prop where
  closed_le : b.closed ≤ b.opened
  length_frames : b.frames.length = b.opened - b.closed + 1
  length_frames_le : b.frames.length ≤ b.maxDepth + 1
  length_values_le : b.values.length ≤ 1
  of_operator : b.operator.isSome = true → b.values.length = 1 ∧ b.operatorRequired = false
  of_value : b.values.length = 1 → b.operator = none → b.operatorRequired = true
  of_pending : ∀ frame ∈ b.frames, frame.pending.isSome = true → frame.formula.isSome = true
  outer_awaits : ∀ frame ∈ b.frames.tail, frame.Awaits
  inner_complete : ∀ frame, b.frames.head? = some frame →
    (frame.formula.isSome = true ∧ frame.pending = none ↔ b.operatorRequired = true ∧ b.values = [])

/-- The frames of a builder: only the innermost one can be complete, and it is so just when a
connective or the end has to follow. -/
theorem Reads.exists_frames (h : Reads maxDepth b ts) : ∃ inner outer, b.frames = inner :: outer ∧
    b.opened = outer.length + b.closed ∧ outer.length ≤ maxDepth ∧
    (∀ frame ∈ outer, frame.Awaits) ∧
    (b.operatorRequired = true ∧ b.values = [] ∧ (∃ f, inner = ⟨some f, none⟩) ∨
      ¬ (b.operatorRequired = true ∧ b.values = []) ∧ inner.Awaits) := by
  have hlength : ∀ {depth frames us}, Encloses maxDepth depth frames us →
      frames.length ≤ maxDepth := by
    intro depth frames us he
    have hsum := he.depth_add_length
    omega
  cases h with
  | waiting closed incomplete he hw =>
    exact ⟨_, _, rfl, rfl, hlength he, he.awaits, .inr ⟨nofun, hw.awaits⟩⟩
  | value closed he hw =>
    exact ⟨_, _, rfl, rfl, hlength he, he.awaits, .inr ⟨nofun, hw.awaits⟩⟩
  | operator closed he hw =>
    exact ⟨_, _, rfl, rfl, hlength he, he.awaits, .inr ⟨nofun, hw.awaits⟩⟩
  | complete closed he =>
    exact ⟨_, _, rfl, rfl, hlength he, he.awaits, .inl ⟨rfl, rfl, _, rfl⟩⟩

theorem Reads.values (h : Reads maxDepth b ts) : b.values.length ≤ 1 ∧
    (b.operator.isSome = true → b.values.length = 1 ∧ b.operatorRequired = false) ∧
    (b.values.length = 1 → b.operator = none → b.operatorRequired = true) := by
  cases h <;> simp

theorem Reads.sound (h : Reads maxDepth b ts) (hdepth : b.maxDepth = maxDepth) : b.Sound := by
  obtain ⟨inner, outer, hframes, hopened, houter, hawaits, hinner⟩ := h.exists_frames
  obtain ⟨hvalues, hoperator, hvalue⟩ := h.values
  refine ⟨by omega, ?_, ?_, hvalues, hoperator, hvalue, ?_, ?_, ?_⟩
  · rw [hframes, List.length_cons]
    omega
  · rw [hframes, List.length_cons]
    omega
  · rw [hframes]
    refine List.forall_mem_cons.mpr ⟨?_, fun frame hframe => (hawaits frame hframe).mpr⟩
    rcases hinner with ⟨_, _, f, rfl⟩ | ⟨_, hinner⟩
    · exact nofun
    · exact hinner.mpr
  · rwa [hframes]
  · rw [hframes]
    rintro frame ⟨⟩
    rcases hinner with ⟨hrequired, hnil, f, rfl⟩ | ⟨hnot, hinner⟩
    · exact iff_of_true ⟨rfl, rfl⟩ ⟨hrequired, hnil⟩
    · refine iff_of_false ?_ hnot
      rintro ⟨hformula, hpending⟩
      have hsome := hinner.mp hformula
      rw [hpending] at hsome
      cases hsome

theorem Sound.awaits_of_not_complete (h : b.Sound)
    (hnot : ¬ (b.operatorRequired = true ∧ b.values = [])) :
    ∃ inner outer, b.frames = inner :: outer ∧ inner.Awaits := by
  have hlength := h.length_frames
  cases hframes : b.frames with
  | nil => simp [hframes] at hlength
  | cons inner outer =>
    refine ⟨inner, outer, rfl, fun hformula => ?_, h.of_pending inner (by simp [hframes])⟩
    by_contra hpending
    have hcomplete := (h.inner_complete inner (by simp [hframes])).mp
      ⟨hformula, by simpa using hpending⟩
    exact hnot hcomplete

/-- The value that completes a comparison finds a frame that waits for it. -/
theorem Sound.receives_comparison (h : b.Sound) (hg : t.kind.group = .value)
    (ho : b.operator.isSome = true) (hm : Move b t after) :
    ∃ holds, Frame.ReceivesFirst (.leaf holds) b.frames after.frames := by
  obtain ⟨hone, hrequired⟩ := h.of_operator ho
  obtain ⟨inner, outer, hframes, hinner⟩ := h.awaits_of_not_complete (by simp [hrequired])
  cases hm with
  | trivia ht => exact absurd hg (TokenKind.group_ne_value_of_isTrivia ht)
  | value _ _ _ hn =>
    obtain ⟨left, hleft⟩ := List.length_eq_one_iff.mp hone
    obtain ⟨op, hop⟩ := Option.isSome_iff_exists.mp ho
    exact absurd hop (hn left op hleft)
  | @comparison _ _ _ holds =>
    refine ⟨holds, ?_⟩
    rw [decided, pushOperand_eq, hframes]
    exact .intro outer (hinner.receives_push _)
  | operator hk => simp [hk, TokenKind.group] at hg
  | connective hk => simp [hk, TokenKind.group] at hg
  | opening hk => simp [hk, TokenKind.group] at hg
  | closing hk => simp [hk, TokenKind.group] at hg

/-- A group that is closed finds a frame around it that waits for it. -/
theorem Sound.receives_group (h : b.Sound) (hk : t.kind = .closeParen) (hm : Move b t after) :
    ∃ inner outer f, b.frames = inner :: outer ∧ inner.formula = some f ∧
      Frame.ReceivesFirst (.group f) outer after.frames := by
  have hlength := h.length_frames
  have hawaits := h.outer_awaits
  cases hm with
  | @closing f pending outer _ hopen _ _ _ hframes =>
    refine ⟨⟨some f, pending⟩, outer, f, hframes, rfl, ?_⟩
    rw [hframes] at hlength hawaits
    cases outer with
    | nil =>
      rw [List.length_singleton] at hlength
      omega
    | cons frame outer =>
      rw [pushOperand_eq]
      exact .intro outer ((hawaits frame List.mem_cons_self).receives_push _)
  | trivia ht => simp [Token.isTrivia, hk, TokenKind.isTrivia] at ht
  | value hg => simp [hk, TokenKind.group] at hg
  | comparison hg => simp [hk, TokenKind.group] at hg
  | operator hk' => cases hk.symm.trans hk'
  | connective hk' => cases hk.symm.trans hk'
  | opening hk' => cases hk.symm.trans hk'

/-- No other token changes a formula. -/
theorem Move.formulas_eq (hm : Move b t after)
    (hvalue : ¬ (t.kind.group = .value ∧ b.operator.isSome = true)) (hclose : t.kind ≠ .closeParen) :
    after.frames.filterMap Frame.formula = b.frames.filterMap Frame.formula := by
  cases hm with
  | trivia => rfl
  | value => rfl
  | comparison hg _ _ _ ho => exact absurd ⟨hg, by simp [ho]⟩ hvalue
  | operator => rfl
  | connective => cases hframes : b.frames <;> simp [joined, hframes, List.filterMap_cons]
  | opening => rfl
  | closing hk => exact absurd hk hclose

/-- Between two tokens a builder is sound, and every operand that the next token completes finds a
frame that waits for it. -/
theorem sound_between_tokens {tokens : List Token}
    (h : tokens.foldlM step (start maxDepth) = .ok b) :
    b.Sound ∧ b.maxDepth = maxDepth ∧ ∀ t after, b.step t = .ok after →
      (t.kind.group = .value ∧ b.operator.isSome = true →
        ∃ holds, Frame.ReceivesFirst (.leaf holds) b.frames after.frames) ∧
      (t.kind = .closeParen → ∃ inner outer f, b.frames = inner :: outer ∧
        inner.formula = some f ∧ Frame.ReceivesFirst (.group f) outer after.frames) ∧
      (¬ (t.kind.group = .value ∧ b.operator.isSome = true) ∧ t.kind ≠ .closeParen →
        after.frames.filterMap Frame.formula = b.frames.filterMap Frame.formula) := by
  have hdepth : b.maxDepth = maxDepth := by
    refine foldlM_keeps (P := fun b => b.maxDepth = maxDepth) (fun _ _ _ hp hs => ?_) rfl h
    rw [(move_of_step hs).maxDepth, hp]
  rw [run_significant] at h
  have hreads : Reads maxDepth b ([] ++ tokens.filter (!·.isTrivia)) :=
    (Reads.start maxDepth).run (by simp) h
  have hsound := hreads.sound hdepth
  refine ⟨hsound, hdepth, fun t after hstep => ?_⟩
  have hm := move_of_step hstep
  exact ⟨fun ⟨hg, ho⟩ => hsound.receives_comparison hg ho hm, fun hk => hsound.receives_group hk hm,
    fun ⟨hvalue, hclose⟩ => hm.formulas_eq hvalue hclose⟩

/-- A group that is closed behind a connective. -/
theorem sound_between_tokens_group :
    let text (s : String) : Token := ⟨.string, s, some (.string s), .start⟩
    let equal : Token := ⟨.comparison .equal, "==", none, .start⟩
    let tokens : List Token := [text "a", equal, text "a", ⟨.connective .and, "&&", none, .start⟩,
      ⟨.openParen, "(", none, .start⟩, text "b", equal, text "c"]
    let b : FormulaBuilder := ⟨[], none, true, false, 1, 0,
      [⟨some (.leaf false), none⟩, ⟨some (.leaf true), some .and⟩], 1⟩
    let after : FormulaBuilder := ⟨[], none, true, false, 1, 1,
      [⟨some (.binary .and (.leaf true) (.group (.leaf false))), none⟩], 1⟩
    let closing : Token := ⟨.closeParen, ")", none, .start⟩
    tokens.foldlM step (start 1) = .ok b ∧ b.Sound ∧ b.step closing = .ok after ∧
      ∃ inner outer f, b.frames = inner :: outer ∧ inner.formula = some f ∧
        Frame.ReceivesFirst (.group f) outer after.frames := by
  intro text equal tokens b after closing
  have hrun : tokens.foldlM step (start 1) = .ok b := rfl
  have hstep : b.step closing = .ok after := rfl
  obtain ⟨hsound, _, hnext⟩ := sound_between_tokens hrun
  exact ⟨hrun, hsound, hstep, (hnext closing after hstep).2.1 rfl⟩

end FormulaBuilder

end Verdict
