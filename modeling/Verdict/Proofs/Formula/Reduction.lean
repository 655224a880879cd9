import Verdict.Engine
import Verdict.Formula.Algebra
import Verdict.Proofs.Formula.Building

namespace Verdict

namespace Formula

/-- Whether a formula holds no group. -/
def isFlat : Formula → Bool
  | empty | leaf _ => true
  | group _ => false
  | binary _ left right => left.isFlat && right.isFlat

/-- A formula with its innermost groups replaced by their verdicts. One pass over the algebra of a
chain does the same to the text. -/
def reduced : Formula → Formula
  | empty => empty
  | leaf holds => leaf holds
  | group f => if f.isFlat then leaf f.verdict else group f.reduced
  | binary op left right => binary op left.reduced right.reduced

theorem reduced_of_isFlat {f : Formula} (h : f.isFlat = true) : f.reduced = f := by
  induction f with
  | empty => rfl
  | leaf holds => rfl
  | group f => cases h
  | binary op left right ihl ihr =>
    simp only [isFlat, Bool.and_eq_true] at h
    rw [reduced, ihl h.1, ihr h.2]

theorem reduced_isOperand {f : Formula} (h : f.IsOperand) : f.reduced.IsOperand := by
  cases f with
  | empty => exact h
  | leaf holds => trivial
  | group f => rw [reduced]; split <;> trivial
  | binary op left right => exact h

theorem Chained.reduced {f : Formula} (h : f.Chained) : f.reduced.Chained := by
  induction h with
  | leaf holds => exact .leaf holds
  | @group f _ ih =>
    rw [Formula.reduced]
    split
    next => exact .leaf f.verdict
    next => exact .group ih
  | binary _ _ ho ihl ihr => exact .binary ihl ihr (reduced_isOperand ho)

@[simp] theorem verdict_reduced (f : Formula) : f.reduced.verdict = f.verdict := by
  induction f with
  | empty => rfl
  | leaf holds => rfl
  | group f ih =>
    rw [reduced]
    split
    next => simp
    next => simpa using ih
  | binary op left right ihl ihr => simp [reduced, ihl, ihr]

theorem Chained.algebra_ne_nil {f : Formula} (h : f.Chained) : f.algebra ≠ [] := by
  cases h <;> simp

theorem length_algebra_reduced_le {f : Formula} (h : f.Chained) :
    f.reduced.algebra.length ≤ f.algebra.length := by
  induction h with
  | leaf holds => exact Nat.le_refl _
  | @group f hf ih =>
    rw [reduced]
    split
    next => simp
    next => simpa using ih
  | binary _ _ _ ihl ihr =>
    simp only [reduced, algebra_binary, List.length_append, List.length_cons]
    omega

/-- A pass that replaces a group makes the text shorter. -/
theorem length_algebra_reduced_lt {f : Formula} (h : f.Chained) (hflat : f.isFlat = false) :
    f.reduced.algebra.length < f.algebra.length := by
  induction h with
  | leaf holds => cases hflat
  | @group f hf ih =>
    rw [reduced]
    split
    next =>
      have hpos : 0 < f.algebra.length := List.length_pos_iff.mpr hf.algebra_ne_nil
      simp only [algebra_leaf, algebra_group, List.length_cons, List.length_nil,
        List.length_append]
      omega
    next hn => simpa using ih (by simpa using hn)
  | @binary op left right hl hr _ ihl ihr =>
    have hll := length_algebra_reduced_le hl
    have hrl := length_algebra_reduced_le hr
    simp only [reduced, algebra_binary, List.length_append, List.length_cons]
    cases hlf : left.isFlat with
    | false =>
      have := ihl hlf
      omega
    | true =>
      have := ihr (by simpa [isFlat, hlf] using hflat)
      omega

end Formula

namespace Algebra

namespace Pass

/-- A pass that has read characters other than parentheses. -/
def append (p : Pass) (s : List Char) : Pass :=
  match p.inner with
  | none => { p with done := s.reverse ++ p.done }
  | some inner => { p with inner := some (s.reverse ++ inner) }

theorem append_nil (p : Pass) : p.append [] = p := by
  cases h : p.inner <;> cases p <;> simp_all [append]

theorem append_append (p : Pass) (s t : List Char) :
    (p.append s).append t = p.append (s ++ t) := by
  cases h : p.inner <;> simp [append, h]

theorem flush_append (p : Pass) (s : List Char) :
    (p.append s).flush = s.reverse ++ p.flush := by
  cases h : p.inner <;> simp [append, flush, h]

theorem step_plain {p : Pass} {c : Char} (ho : c ≠ '(') (hc : c ≠ ')') :
    p.step c = .ok (p.append [c]) := by
  cases h : p.inner <;> unfold step <;> split <;> simp_all [append]

theorem step_digit (p : Pass) (holds : Bool) :
    p.step (Formula.digit holds) = .ok (p.append [Formula.digit holds]) := by
  cases holds <;> exact step_plain (by decide) (by decide)

theorem step_symbol (p : Pass) (op : Connective) :
    p.step op.symbol = .ok (p.append [op.symbol]) := by
  cases op <;> exact step_plain (by decide) (by decide)

end Pass

/-- A text without groups is passed over as it is. -/
theorem foldlM_step_flat {f : Formula} (hf : f.isFlat = true) (p : Pass) :
    f.algebra.foldlM Pass.step p = .ok (p.append f.algebra) := by
  induction f generalizing p with
  | empty => simp [Pass.append_nil, pure, Except.pure]
  | leaf holds =>
    rw [Formula.algebra_leaf, foldlM_cons_ok (p.step_digit holds)]
    rfl
  | group f => cases hf
  | binary op left right ihl ihr =>
    simp only [Formula.isFlat, Bool.and_eq_true] at hf
    rw [Formula.algebra_binary, foldlM_append_ok (ihl hf.1 p),
      foldlM_cons_ok (Pass.step_symbol _ op), ihr hf.2, Pass.append_append, Pass.append_append]
    simp

namespace Reading

theorem step_symbol (r : Reading) (op : Connective) :
    r.step op.symbol = .ok { r with both := op == .and } := by
  cases op <;> rfl

theorem step_digit (r : Reading) (bit : Bool) : r.step (Formula.digit bit) = .ok (r.take bit) := by
  cases bit <;> rfl

/-- A digit is taken in as the connective before it says. -/
theorem holds_take (holds bit : Bool) (op : Connective) :
    (take ⟨holds, op == .and⟩ bit).holds = op.apply holds bit := by
  cases op <;> rfl

end Reading

/-- A chain of digits is read as its verdict, whatever connective was read last. -/
theorem foldlM_step_digits {f : Formula} (hf : f.Chained) (hflat : f.isFlat = true) :
    ∃ c rest both, f.algebra = c :: rest ∧
      rest.foldlM Reading.step ⟨c == '1', false⟩ = .ok ⟨f.verdict, both⟩ := by
  induction hf with
  | leaf holds =>
    refine ⟨Formula.digit holds, [], false, Formula.algebra_leaf holds, ?_⟩
    rw [Formula.verdict_leaf]
    cases holds <;> rfl
  | group => cases hflat
  | @binary op left right _ hr ho ihl _ =>
    simp only [Formula.isFlat, Bool.and_eq_true] at hflat
    obtain ⟨c, rest, last, hleft, hread⟩ := ihl hflat.1
    cases hr with
    | group => cases hflat.2
    | binary => cases ho
    | leaf holds =>
      refine ⟨c, rest ++ [op.symbol, Formula.digit holds], op == .and, by simp [hleft], ?_⟩
      rw [foldlM_append_ok hread, foldlM_cons_ok (Reading.step_symbol _ op),
        foldlM_cons_ok (Reading.step_digit _ holds), Formula.verdict_binary, Formula.verdict_leaf,
        ← Reading.holds_take]
      rfl

theorem flatVerdict?_algebra {f : Formula} (hf : f.Chained) (hflat : f.isFlat = true) :
    flatVerdict? f.algebra = .ok (some f.verdict) := by
  obtain ⟨c, rest, both, hs, hread⟩ := foldlM_step_digits hf hflat
  rw [hs, flatVerdict?, hread]
  rfl

theorem step_close_flat {p : Pass} {f : Formula} (hf : f.Chained) (hflat : f.isFlat = true)
    (hp : p.inner = some f.algebra.reverse) :
    p.step ')' = .ok ⟨Formula.digit f.verdict :: p.done, none, true⟩ := by
  obtain ⟨c, rest, hrev⟩ :=
    List.exists_cons_of_ne_nil (mt List.reverse_eq_nil_iff.mp hf.algebra_ne_nil)
  have hverdict := flatVerdict?_algebra hf hflat
  rw [← List.reverse_reverse f.algebra, hrev] at hverdict
  simp only [Pass.step, hp, hrev]
  rw [hverdict]
  rfl

/-- A pass over a chain with a group ends outside all groups and has reduced the chain. -/
theorem foldlM_step_chained {f : Formula} (hf : f.Chained) (hflat : f.isFlat = false) (p : Pass) :
    f.algebra.foldlM Pass.step p = .ok ⟨f.reduced.algebra.reverse ++ p.flush, none, true⟩ := by
  induction hf generalizing p with
  | leaf holds => cases hflat
  | @group f hf ih =>
    have hopen : p.step '(' = .ok ⟨p.flush, some [], p.changed⟩ := rfl
    rw [Formula.algebra_group, foldlM_cons_ok hopen]
    cases hin : f.isFlat with
    | true =>
      rw [foldlM_append_ok (foldlM_step_flat hin _),
        foldlM_cons_ok (step_close_flat hf hin (by simp [Pass.append]))]
      simp [Formula.reduced, hin, Pass.append, pure, Except.pure]
    | false =>
      rw [foldlM_append_ok (ih hin _)]
      simp [Formula.reduced, hin, Pass.flush, Pass.step, pure, Except.pure, bind, Except.bind]
  | @binary op left right hl hr _ ihl ihr =>
    rw [Formula.algebra_binary, Formula.reduced, Formula.algebra_binary]
    cases hlf : left.isFlat with
    | true =>
      have hrf : right.isFlat = false := by simpa [Formula.isFlat, hlf] using hflat
      rw [foldlM_append_ok (foldlM_step_flat hlf p), foldlM_cons_ok (Pass.step_symbol _ op),
        ihr hrf, Formula.reduced_of_isFlat hlf, Pass.append_append, Pass.flush_append]
      simp
    | false =>
      rw [foldlM_append_ok (ihl hlf p), foldlM_cons_ok (Pass.step_symbol _ op)]
      cases hrf : right.isFlat with
      | true =>
        rw [foldlM_step_flat hrf, Pass.append_append, Formula.reduced_of_isFlat hrf]
        simp [Pass.append]
      | false =>
        rw [ihr hrf, Pass.flush_append]
        simp [Pass.flush]

theorem reduceGroups_algebra {f : Formula} (hf : f.Chained) :
    reduceGroups f.algebra = .ok (f.reduced.algebra, !f.isFlat) := by
  unfold reduceGroups
  cases hflat : f.isFlat with
  | true =>
    rw [foldlM_step_flat hflat, Formula.reduced_of_isFlat hflat]
    simp [Except.map, Pass.append, Pass.start, Pass.flush]
  | false =>
    rw [foldlM_step_chained hf hflat]
    simp [Except.map, Pass.start, Pass.flush]

/-- As many passes as the text has characters leave no group. -/
theorem reduceAll_algebra {fuel : Nat} {f : Formula} (hf : f.Chained)
    (hfuel : f.algebra.length ≤ fuel) :
    ∃ g : Formula, reduceAll fuel f.algebra = .ok g.algebra ∧ g.Chained ∧ g.isFlat = true ∧
      g.verdict = f.verdict := by
  induction fuel generalizing f with
  | zero => exact absurd (List.eq_nil_of_length_eq_zero (by omega)) hf.algebra_ne_nil
  | succ fuel ih =>
    rw [reduceAll, reduceGroups_algebra hf]
    cases hflat : f.isFlat with
    | true => exact ⟨f, rfl, hf, hflat, rfl⟩
    | false =>
      have hlt := Formula.length_algebra_reduced_lt hf hflat
      obtain ⟨g, hg, hgc, hgf, hgv⟩ := ih hf.reduced (by omega)
      exact ⟨g, hg, hgc, hgf, by rw [hgv, Formula.verdict_reduced]⟩

theorem verdict_algebra_of_shaped {f : Formula} (hf : f.Shaped) :
    verdict f.algebra = .ok f.verdict := by
  rcases hf with rfl | hf
  · rw [Formula.algebra_empty, Formula.verdict_empty]
    rfl
  · obtain ⟨g, hg, hgc, hgf, hgv⟩ := reduceAll_algebra hf (Nat.le_refl _)
    rw [verdict, hg]
    change (do return (← flatVerdict? g.algebra).getD false) = _
    rw [flatVerdict?_algebra hgc hgf, ← hgv]
    rfl

end Algebra

/-- The algebra of a rule, read as text, has the verdict of the rule. So has the algebra of every
formula of the same shape. -/
theorem algebra_verdict_agrees :
    (∀ (engine : Engine) (text : String) (b : Bindings) (f : Formula),
      engine.formula text b = .ok f → Algebra.verdict f.text.toList = .ok f.verdict) ∧
    ∀ f : Formula, f.Shaped → Algebra.verdict f.text.toList = .ok f.verdict := by
  have shaped (f : Formula) (hf : f.Shaped) : Algebra.verdict f.text.toList = .ok f.verdict := by
    rw [Formula.text, String.toList_ofList]
    exact Algebra.verdict_algebra_of_shaped hf
  refine ⟨fun engine text b f h => shaped f ?_, shaped⟩
  unfold Engine.formula at h
  split at h
  next => cases h
  next => exact Formula.ofOperands_shaped h

theorem algebra_verdict_agrees_nested :
    (Engine.standard .standard).formula "0 = 1 || (1 = 1 && (2 = 3 or 1 = 1))" .empty =
      .ok (.binary .or (.leaf false) (.group (.binary .and (.leaf true)
        (.group (.binary .or (.leaf false) (.leaf true)))))) ∧
    Algebra.verdict (Formula.binary .or (.leaf false) (.group (.binary .and (.leaf true)
      (.group (.binary .or (.leaf false) (.leaf true)))))).text.toList = .ok true := by
  have h : (Engine.standard .standard).formula "0 = 1 || (1 = 1 && (2 = 3 or 1 = 1))" .empty =
      .ok (.binary .or (.leaf false) (.group (.binary .and (.leaf true)
        (.group (.binary .or (.leaf false) (.leaf true)))))) := by decide +kernel
  exact ⟨h, by simpa [Connective.apply] using algebra_verdict_agrees.1 _ _ _ _ h⟩

end Verdict
