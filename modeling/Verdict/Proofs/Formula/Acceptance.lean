import Verdict.Proofs.Formula.Grammar

namespace Verdict

namespace FormulaBuilder

theorem valueOf_eq_ok_iff {t : Token} {v : Value} :
    valueOf t = .ok v ↔ t.IsBound ∧ t.operand = v := by
  unfold valueOf Token.IsBound Token.operand
  cases t.value with
  | some w => simp
  | none =>
    by_cases hk : t.kind = .identifier
    · simp [hk]
    · simp [hk]

/-- A builder that has read an operand, or a whole chain in an empty frame, with `groups` groups. -/
def completed (b : FormulaBuilder) (f : Formula) (groups : Nat) : FormulaBuilder :=
  { b with
    values := [], operator := none, operatorRequired := true, conditionIncomplete := false,
    opened := b.opened + groups, closed := b.closed + groups,
    frames := b.frames.modifyHead (·.push f) }

/-- An operand has to come next, and the frames leave room for groups nested this deep. -/
structure Expects (b : FormulaBuilder) (depth : Nat) : Prop where
  values : b.values = []
  operator : b.operator = none
  operatorRequired : b.operatorRequired = false
  closed_le : b.closed ≤ b.opened
  room : b.frames.length + depth ≤ b.maxDepth + 1

theorem run_comparison {b : FormulaBuilder} {left op right : Token} {c : Comparison}
    {depth : Nat} (hb : b.Expects depth) (hl : left.kind.group = .value) (hlb : left.IsBound)
    (ho : op.kind = .comparison c) (hr : right.kind.group = .value) (hrb : right.IsBound)
    (hm : c = .member → ∃ items, right.operand = .array items) :
    ∃ holds, c.holds? left.operand right.operand = some holds ∧
      [left, op, right].foldlM step b = .ok (b.completed (.leaf holds) 0) := by
  obtain ⟨holds, hh⟩ := Option.isSome_iff_exists.mp
    ((Comparison.holds?_isSome_iff c left.operand right.operand).mpr hm)
  have h1 : b.step left = .ok (b.held left.operand) :=
    step_of_move (.value hl hb.operatorRequired (valueOf_eq_ok_iff.mpr ⟨hlb, rfl⟩)
      (fun _ _ h => by simp [hb.values] at h))
  have hv : (b.held left.operand).values = [left.operand] := by simp [held, hb.values]
  have h2 := step_of_move (Move.operator (b := b.held left.operand) ho hb.operator (by simp [hv]))
  have h3 := step_of_move (Move.comparison
    (b := { b.held left.operand with operator := some c, operatorRequired := false })
    hr rfl (valueOf_eq_ok_iff.mpr ⟨hrb, rfl⟩) hv rfl hh)
  refine ⟨holds, hh, ?_⟩
  rw [foldlM_cons_ok h1, foldlM_cons_ok h2, foldlM_cons_ok h3, decided, pushOperand_eq]
  rfl

theorem run_group {b : FormulaBuilder} {opener closer : Token} {ts : List Token} {depth : Nat}
    (hb : b.Expects (depth + 1)) (ho : opener.kind = .openParen)
    (hc : closer.kind = .closeParen) {f : Formula} {groups : Nat}
    (hrun : ts.foldlM step { b with opened := b.opened + 1, frames := ⟨none, none⟩ :: b.frames } =
      .ok (completed { b with opened := b.opened + 1, frames := ⟨none, none⟩ :: b.frames }
        f groups)) :
    (opener :: (ts ++ [closer])).foldlM step b = .ok (b.completed (.group f) (groups + 1)) := by
  have hroom := hb.room
  have hclosed := hb.closed_le
  have h1 := step_of_move (Move.opening (b := b) ho hb.operatorRequired hb.values (by omega))
  let inside := completed { b with opened := b.opened + 1, frames := ⟨none, none⟩ :: b.frames }
    f groups
  have hframes : inside.frames = ⟨some f, none⟩ :: b.frames := rfl
  have h2 := step_of_move (Move.closing (b := inside) hc
    (show b.closed + groups < b.opened + 1 + groups by omega) rfl rfl rfl hframes)
  rw [foldlM_cons_ok h1, foldlM_append_ok hrun, foldlM_cons_ok h2, pushOperand_eq]
  have hopened : b.opened + 1 + groups = b.opened + (groups + 1) := by omega
  simp only [inside, completed, List.foldlM_nil, hopened]
  rfl

/-- Derived tokens are read to their end, and their formula has the algebra that they write. A chain
needs a frame of its own. -/
theorem run_derived {part : RulePart} {depth : Nat} {ts : List Token}
    (h : part.Derives depth ts) {b : FormulaBuilder} {frame : Frame} {frames : List Frame}
    (hb : b.Expects depth) (hf : b.frames = frame :: frames)
    (hfresh : part = .chain → frame = ⟨none, none⟩) :
    ∃ f groups, ts.foldlM step b = .ok (b.completed f groups) ∧ f.algebra = written ts := by
  induction h generalizing b frame frames with
  | @comparison depth left op right c hl hlb ho hr hrb hm =>
    obtain ⟨holds, hh, hrun⟩ := run_comparison hb hl hlb ho hr hrb hm
    refine ⟨.leaf holds, 0, hrun, ?_⟩
    simp [written_comparison hl, writtenDigit, ho, TokenKind.comparison?, hh,
      show written [] = [] from rfl]
  | @group depth opener closer ts ho hts hc ih =>
    have hroom := hb.room
    have hclosed := hb.closed_le
    obtain ⟨f, groups, hrun, halgebra⟩ := ih
      (b := { b with opened := b.opened + 1, frames := ⟨none, none⟩ :: b.frames })
      ⟨hb.values, hb.operator, hb.operatorRequired, Nat.le_succ_of_le hclosed,
        by simp only [List.length_cons]; omega⟩ rfl (fun _ => rfl)
    refine ⟨.group f, groups + 1, run_group hb ho hc hrun, ?_⟩
    simp [written_open ho, hts.written_append, written_close hc, halgebra,
      show written [] = [] from rfl]
  | @single depth ts hts ih => exact ih hb hf (by simp)
  | @join depth t op ts us hts ht hus ihc iho =>
    have hframe : frame = ⟨none, none⟩ := hfresh rfl
    subst hframe
    have hroom := hb.room
    have hclosed := hb.closed_le
    obtain ⟨f, m, hleft, hfa⟩ := ihc hb hf (fun _ => rfl)
    have hjoin := step_of_move (Move.connective (b := b.completed f m) ht rfl rfl)
    have hjf : ((b.completed f m).joined op).frames = ⟨some f, some op⟩ :: frames := by
      simp [joined, completed, hf, Frame.push]
    obtain ⟨g, n, hright, hga⟩ := iho (b := (b.completed f m).joined op)
      ⟨rfl, rfl, rfl, Nat.add_le_add_right hclosed m,
        by simpa [hjf, hf, joined, completed] using hroom⟩
      hjf (by simp)
    refine ⟨f.join op g, m + n, ?_, ?_⟩
    · rw [foldlM_append_ok hleft, foldlM_cons_ok hjoin, hright]
      simp [completed, joined, hf, Frame.push, Nat.add_assoc]
    · rw [hts.written_append, written_connective ht, ← hfa, ← hga]
      exact Formula.algebra_binary op f g

end FormulaBuilder

/-- The tokens that a frame has read when an operand comes next. -/
inductive Frame.Waits (depth : Nat) : Frame → List Token → Prop
  | fresh : Waits depth ⟨none, none⟩ []
  | joined {f : Formula} {op : Connective} {t : Token} {ts : List Token} :
    RulePart.chain.Derives depth ts → t.kind = .connective op →
    Waits depth ⟨some f, some op⟩ (ts ++ [t])

/-- The tokens before the innermost open parenthesis, that included, and the depth to which groups
may nest behind it. -/
inductive Encloses (maxDepth : Nat) : Nat → List Frame → List Token → Prop
  | rule : Encloses maxDepth maxDepth [] []
  | paren {depth : Nat} {frame : Frame} {frames : List Frame} {t : Token} {ts us : List Token} :
    Encloses maxDepth (depth + 1) frames ts → frame.Waits (depth + 1) us → t.kind = .openParen →
    Encloses maxDepth depth (frame :: frames) (ts ++ us ++ [t])

theorem Frame.Waits.push {depth : Nat} {frame : Frame} {us vs : List Token}
    (hw : frame.Waits depth us) (hvs : RulePart.operand.Derives depth vs) (operand : Formula) :
    ∃ f, frame.push operand = ⟨some f, none⟩ ∧ RulePart.chain.Derives depth (us ++ vs) := by
  cases hw with
  | fresh => exact ⟨operand, rfl, .single hvs⟩
  | @joined f op t ts hts ht =>
    exact ⟨f.join op operand, rfl, by simpa using RulePart.Derives.join hts ht hvs⟩

theorem Encloses.depth_add_length {maxDepth depth : Nat} {frames : List Frame} {ts : List Token}
    (h : Encloses maxDepth depth frames ts) : depth + frames.length = maxDepth := by
  induction h with
  | rule => simp
  | paren _ _ _ ih =>
    simp only [List.length_cons]
    omega

namespace FormulaBuilder

/-- What a builder has read: the tokens before the innermost open parenthesis, those of its frame,
and up to two tokens of a comparison. -/
inductive Reads (maxDepth : Nat) : FormulaBuilder → List Token → Prop
  | waiting {depth : Nat} (closed : Nat) (incomplete : Bool) {frame : Frame} {frames : List Frame}
    {ts us : List Token} : Encloses maxDepth depth frames ts → frame.Waits depth us →
    (frame.pending.isSome → incomplete = true) →
    Reads maxDepth ⟨[], none, false, incomplete, frames.length + closed, closed, frame :: frames,
      maxDepth⟩ (ts ++ us)
  | value {depth : Nat} (closed : Nat) {frame : Frame} {frames : List Frame} {left : Token}
    {ts us : List Token} : Encloses maxDepth depth frames ts → frame.Waits depth us →
    left.kind.group = .value → left.IsBound →
    Reads maxDepth ⟨[left.operand], none, true, false, frames.length + closed, closed,
      frame :: frames, maxDepth⟩ (ts ++ us ++ [left])
  | operator {depth : Nat} (closed : Nat) {frame : Frame} {frames : List Frame} {left op : Token}
    {c : Comparison} {ts us : List Token} : Encloses maxDepth depth frames ts →
    frame.Waits depth us → left.kind.group = .value → left.IsBound → op.kind = .comparison c →
    Reads maxDepth ⟨[left.operand], some c, false, false, frames.length + closed, closed,
      frame :: frames, maxDepth⟩ (ts ++ us ++ [left, op])
  | complete {depth : Nat} (closed : Nat) {f : Formula} {frames : List Frame} {ts us : List Token} :
    Encloses maxDepth depth frames ts → RulePart.chain.Derives depth us →
    Reads maxDepth ⟨[], none, true, false, frames.length + closed, closed, ⟨some f, none⟩ :: frames,
      maxDepth⟩ (ts ++ us)

theorem Reads.start (maxDepth : Nat) : Reads maxDepth (.start maxDepth) [] :=
  .waiting 0 false .rule .fresh (by simp)

/-- Every token but a separating one is read to the end of what has been read. -/
theorem Reads.move {maxDepth : Nat} {b after : FormulaBuilder} {t : Token} {ts : List Token}
    (h : Reads maxDepth b ts) (hm : Move b t after) (ht : t.isTrivia = false) :
    Reads maxDepth after (ts ++ [t]) := by
  cases h with
  | @waiting depth closed incomplete frame frames ts us he hw hi =>
    cases hm with
    | trivia htr => simp [htr] at ht
    | @value v hg _ hv =>
      obtain ⟨hb, rfl⟩ := valueOf_eq_ok_iff.mp hv
      exact .value closed he hw hg hb
    | comparison _ _ _ hl => cases hl
    | operator _ _ hv => exact absurd rfl hv
    | connective _ hr => cases hr
    | opening hk _ _ hd =>
      have hlen := he.depth_add_length
      simp only [List.length_cons] at hd
      obtain ⟨depth, rfl⟩ : ∃ d, depth = d + 1 := ⟨depth - 1, by omega⟩
      have hn := Reads.waiting closed incomplete (.paren he hw hk) .fresh (by simp)
      have hopened : (frame :: frames).length + closed = frames.length + closed + 1 := by
        simp only [List.length_cons]
        omega
      rwa [hopened, List.append_nil] at hn
    | closing _ _ _ _ hc hf =>
      cases hw with
      | fresh => cases hf
      | joined => simp [hi rfl] at hc
  | @value depth closed frame frames left ts us he hw hg hb =>
    cases hm with
    | trivia htr => simp [htr] at ht
    | value _ hr => cases hr
    | comparison _ hr => cases hr
    | operator hk =>
      have hn := Reads.operator closed he hw hg hb hk
      simpa using hn
    | connective _ _ hv => cases hv
    | opening _ hr => cases hr
    | closing _ _ _ hv => cases hv
  | @operator depth closed frame frames left op c ts us he hw hg hb ho =>
    cases hm with
    | trivia htr => simp [htr] at ht
    | value _ _ _ hn => exact absurd rfl (hn left.operand c rfl)
    | @comparison l right c' holds hrg _ hv hl hc hh =>
      cases hl
      cases hc
      obtain ⟨hrb, rfl⟩ := valueOf_eq_ok_iff.mp hv
      have hmem := (Comparison.holds?_isSome_iff _ _ _).mp
        (Option.isSome_iff_exists.mpr ⟨holds, hh⟩)
      obtain ⟨f, hpush, hchain⟩ :=
        hw.push (.comparison hg hb ho hrg hrb hmem) (.leaf holds)
      have hn := Reads.complete closed (f := f) he hchain
      rw [decided, pushOperand_eq]
      simpa [hpush] using hn
    | operator _ hc => cases hc
    | connective _ hr => cases hr
    | opening _ _ hv => cases hv
    | closing _ _ _ hv => cases hv
  | @complete depth closed f frames ts us he hch =>
    cases hm with
    | trivia htr => simp [htr] at ht
    | value _ hr => cases hr
    | comparison _ hr => cases hr
    | operator _ _ hv => exact absurd rfl hv
    | @connective op hk =>
      have hn := Reads.waiting closed true he (.joined (f := f) hch hk) (by simp)
      simpa [joined] using hn
    | opening _ hr => cases hr
    | @closing inner pending rest hk hcl _ _ _ hf =>
      cases hf
      cases he with
      | rule => simp at hcl
      | @paren _ frame frames t ts us' he hw ho =>
        obtain ⟨g, hpush, hchain⟩ := hw.push (.group ho hch hk) (.group f)
        have hn := Reads.complete (closed + 1) (f := g) he hchain
        rw [pushOperand_eq]
        simpa [hpush, Nat.add_assoc, Nat.add_comm 1] using hn

theorem run_significant (b : FormulaBuilder) (ts : List Token) :
    ts.foldlM step b = (ts.filter (!·.isTrivia)).foldlM step b := by
  induction ts generalizing b with
  | nil => rfl
  | cons t ts ih =>
    cases ht : t.isTrivia with
    | true =>
      rw [foldlM_cons_ok (step_of_move (.trivia ht)), ih, List.filter_cons_of_neg (by simp [ht])]
    | false =>
      rw [List.filter_cons_of_pos (by simp [ht]), List.foldlM_cons, List.foldlM_cons]
      cases b.step t with
      | error e => rfl
      | ok next => exact ih next

theorem Reads.run {maxDepth : Nat} {b after : FormulaBuilder} {ts us : List Token}
    (h : Reads maxDepth b ts) (hus : ∀ t ∈ us, t.isTrivia = false)
    (hrun : us.foldlM step b = .ok after) : Reads maxDepth after (ts ++ us) := by
  refine foldlM_reads (P := Reads maxDepth) (fun b ts next t ht hb hs => ?_) h hrun
  exact hb.move (move_of_step hs) (hus t ht)

theorem Reads.isRule {maxDepth : Nat} {b : FormulaBuilder} {ts : List Token} {f : Formula}
    (h : Reads maxDepth b ts) (hf : b.finish = .ok f) : IsRule maxDepth ts := by
  obtain ⟨hi, hc, ho, hv, _⟩ := finish_eq_ok_iff.mp hf
  cases h with
  | @waiting depth closed incomplete frame frames ts us he hw hp =>
    have hnil : frames = [] := List.eq_nil_of_length_eq_zero (by dsimp only at hc; omega)
    subst hnil
    cases he
    cases hw with
    | fresh => exact Or.inl rfl
    | joined => simp [hp rfl] at hi
  | value => cases hv
  | operator => cases hv
  | @complete depth closed f frames ts us he hch =>
    have hnil : frames = [] := List.eq_nil_of_length_eq_zero (by dsimp only at hc; omega)
    subst hnil
    cases he
    exact Or.inr hch

end FormulaBuilder

namespace Formula

theorem ofTokens_of_isRule {maxDepth : Nat} {ts : List Token} (h : IsRule maxDepth ts) :
    ∃ f, ofTokens maxDepth ts = .ok f ∧ f.algebra = written ts := by
  rcases h with rfl | h
  · exact ⟨.empty, rfl, algebra_empty⟩
  · have hb : (FormulaBuilder.start maxDepth).Expects maxDepth :=
      ⟨rfl, rfl, rfl, Nat.le_refl 0, by simp [FormulaBuilder.start, Nat.add_comm]⟩
    obtain ⟨f, groups, hrun, halgebra⟩ := FormulaBuilder.run_derived h hb rfl (fun _ => rfl)
    refine ⟨f, ofOperands_eq_ok_iff.mpr ⟨rfl, _, hrun, ?_⟩, halgebra⟩
    exact FormulaBuilder.finish_eq_ok_iff.mpr ⟨rfl, Nat.le_refl _, rfl, rfl, rfl⟩

theorem ofTokens_significant (maxDepth : Nat) (tokens : List Token) :
    ofTokens maxDepth tokens = ofTokens maxDepth (tokens.filter (!·.isTrivia)) := by
  unfold ofTokens ofOperands
  rw [FormulaBuilder.run_significant]

theorem isRule_of_ofTokens {maxDepth : Nat} {ts : List Token} {f : Formula}
    (hts : ∀ t ∈ ts, t.isTrivia = false) (h : ofTokens maxDepth ts = .ok f) :
    IsRule maxDepth ts := by
  obtain ⟨_, b, hrun, hfinish⟩ := ofOperands_eq_ok_iff.mp h
  have hr := (FormulaBuilder.Reads.start maxDepth).run hts hrun
  exact FormulaBuilder.Reads.isRule (by simpa using hr) hfinish

theorem isRule_significant {maxDepth : Nat} {tokens : List Token} {f : Formula}
    (h : ofTokens maxDepth tokens = .ok f) : IsRule maxDepth (tokens.filter (!·.isTrivia)) := by
  rw [ofTokens_significant] at h
  exact isRule_of_ofTokens (fun t ht => by simpa using (List.mem_filter.mp ht).2) h

end Formula

/-- Tokens form a rule exactly if the grammar says so, and the algebra of the rule is what the
tokens write: no comparison is lost, doubled or moved. -/
theorem ofTokens_ok_iff_isRule (maxDepth : Nat) (tokens : List Token) :
    ((∃ f, Formula.ofTokens maxDepth tokens = .ok f) ↔
      IsRule maxDepth (tokens.filter (!·.isTrivia))) ∧
    ∀ f, Formula.ofTokens maxDepth tokens = .ok f →
      f.text = String.ofList (written (tokens.filter (!·.isTrivia))) := by
  refine ⟨⟨fun ⟨f, hf⟩ => Formula.isRule_significant hf, fun h => ?_⟩, fun f hf => ?_⟩
  · obtain ⟨f, hf, _⟩ := Formula.ofTokens_of_isRule h
    exact ⟨f, by rw [Formula.ofTokens_significant, hf]⟩
  · obtain ⟨g, hg, halgebra⟩ := Formula.ofTokens_of_isRule (Formula.isRule_significant hf)
    rw [Formula.ofTokens_significant] at hf
    cases Except.ok.inj (hf.symm.trans hg)
    rw [Formula.text, halgebra]

theorem ofTokens_ok_iff_isRule_group :
    let ts : List Token := [⟨.openParen, "(", none, ⟨0, 0, 1⟩⟩,
      ⟨.integer, "1", some (.integer 1), ⟨1, 1, 1⟩⟩, ⟨.space, " ", none, ⟨2, 2, 1⟩⟩,
      ⟨.comparison .member, "in", none, ⟨3, 3, 1⟩⟩,
      ⟨.array, "[", some (.array [.integer 2, .integer 1]), ⟨6, 6, 1⟩⟩,
      ⟨.closeParen, ")", none, ⟨12, 12, 1⟩⟩]
    Formula.ofTokens 1 ts = .ok (.group (.leaf true)) ∧ IsRule 1 (ts.filter (!·.isTrivia)) ∧
      (Formula.group (.leaf true)).text = String.ofList (written (ts.filter (!·.isTrivia))) := by
  intro ts
  have h : Formula.ofTokens 1 ts = .ok (.group (.leaf true)) := by decide +kernel
  exact ⟨h, (ofTokens_ok_iff_isRule 1 ts).1.mp ⟨_, h⟩, (ofTokens_ok_iff_isRule 1 ts).2 _ h⟩

end Verdict
