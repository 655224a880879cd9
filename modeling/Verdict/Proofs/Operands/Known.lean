import Verdict.Proofs.Formula.Acceptance
import Verdict.Proofs.Operands.Reading
import Verdict.Proofs.Operands.Spelling

namespace Verdict

theorem Scope.knows_of_kind {scope : Scope} {t : Token} (hi : t.kind ≠ .identifier)
    (hf : t.kind ≠ .function) (hm : t.kind ≠ .method) : scope.Knows t :=
  ⟨fun h => absurd h hi, fun h => absurd h hf, fun h => absurd h hm⟩

theorem Scope.knows_of_isTrivia {scope : Scope} {t : Token} (h : t.isTrivia = true) :
    scope.Knows t :=
  knows_of_kind (TokenKind.ne_of_isTrivia h rfl) (TokenKind.ne_of_isTrivia h rfl)
    (TokenKind.ne_of_isTrivia h rfl)

namespace OperandReader

variable {scope : Scope} {r : OperandReader} {t u : Token} {ts : List Token}

/-- A token that was read is known, or it was passed on as it is, or it will be: it is a variable
outside all lists, kept until it is clear what follows. -/
def Accounted (scope : Scope) (r : OperandReader) (t : Token) : Prop :=
  scope.Knows t ∨ t ∈ r.output ∨ (r.operand = some ⟨t, false⟩ ∧ r.lists = [])

theorem Accounted.settle (h : Accounted scope r t) : Accounted scope r.settle t := by
  unfold OperandReader.settle
  rcases h with h | h | ⟨ho, hl⟩
  · exact .inl h
  · split
    next => exact .inr (.inl h)
    next => exact .inr (.inl (by simp [h]))
    next => exact .inr (.inl h)
  · rw [ho, hl]
    exact .inr (.inl (by simp))

theorem Accounted.of_output {r' : OperandReader} (ho : r.operand = none)
    (hout : r'.output = r.output) (h : Accounted scope r t) : Accounted scope r' t := by
  rcases h with h | h | ⟨hop, _⟩
  · exact .inl h
  · exact .inr (.inl (hout ▸ h))
  · simp [ho] at hop

theorem accounted_startValue (ho : r.operand = none) (hs : t.kind.startsValue = true)
    (hf : (startValue scope r t).fault = none) (h : u = t ∨ Accounted scope r u) :
    Accounted scope (startValue scope r t) u := by
  have hm : t.kind ≠ .method := TokenKind.ne_of_startsValue hs rfl
  unfold startValue at hf ⊢
  split at hf
  next hk =>
    rcases h with rfl | h
    · exact .inl (Scope.knows_of_kind (by simp [hk]) (by simp [hk]) (by simp [hk]))
    · exact h.of_output ho (output_openList _)
  next hk =>
    split at hf
    next f hr =>
      rcases h with rfl | h
      · exact .inl ⟨fun h => by simp [hk] at h, fun _ => by simp [hr], fun h => by simp [hk] at h⟩
      · exact h.of_output ho (output_openList _)
    next => cases hf
  next hk hv =>
    split at hf
    next v hb =>
      rcases h with rfl | h
      · exact .inl ⟨fun _ _ => by simp [Bindings.contains, hb], fun h => by simp [hk] at h,
          fun h => by simp [hk] at h⟩
      · exact h.of_output ho rfl
    next =>
      split at hf
      next hl =>
        rw [if_pos hl]
        rcases h with rfl | h
        · exact .inr (.inr ⟨rfl, by simpa [hold] using hl⟩)
        · exact h.of_output ho rfl
      next => cases hf
  next v hv hb hfun =>
    rcases h with rfl | h
    · exact .inl ⟨fun _ h => by simp [hv] at h, fun h => absurd h hfun, fun h => absurd h hm⟩
    · exact h.of_output ho rfl
  next hv hb hfun hid =>
    rcases h with rfl | h
    · exact .inl (Scope.knows_of_kind hid hfun hm)
    · exact h.of_output ho rfl

theorem accounted_readToken (ho : r.operand = none) (hf : (readToken scope r t).fault = none)
    (h : u = t ∨ Accounted scope r u) : Accounted scope (readToken scope r t) u := by
  unfold readToken at hf ⊢
  split at hf
  next list lists hl =>
    have hkeep : ∀ r' : OperandReader, r'.output = r.output → scope.Knows t →
        Accounted scope r' u := by
      rintro r' hout hk
      rcases h with rfl | h
      · exact .inl hk
      · exact h.of_output ho hout
    unfold readInList at hf ⊢
    split at hf
    next hk =>
      rw [if_pos hk]
      obtain ⟨_, token, hr⟩ := closeList_of_fault hf
      rw [hr]
      refine hkeep _ rfl (Scope.knows_of_kind ?_ ?_ ?_) <;>
        rw [hk] <;> cases list.opening <;> nofun
    next hk =>
      rw [if_neg hk]
      split at hf
      next hs =>
        rw [if_pos hs]
        split at hf
        next => cases hf
        next hc =>
          rw [if_neg hc]
          exact accounted_startValue ho hs hf h
      next hs =>
        rw [if_neg hs]
        split at hf
        next hc =>
          rw [if_pos hc]
          exact hkeep _ rfl (Scope.knows_of_kind (by simp [hc.1]) (by simp [hc.1]) (by simp [hc.1]))
        next => cases hf
  next hl =>
    split at hf
    next hs =>
      rw [if_pos hs]
      exact accounted_startValue ho hs hf h
    next hs =>
      rw [if_neg hs]
      rcases h with rfl | h | h | ⟨hop, _⟩
      · exact .inr (.inl (by simp [emit]))
      · exact .inl h
      · exact .inr (.inl (by simp [emit, h]))
      · simp [ho] at hop

theorem accounted_step (hr : r.fault = none) (hf : (step scope r t).fault = none)
    (h : u = t ∨ Accounted scope r u) : Accounted scope (step scope r t) u := by
  cases ht : t.isTrivia with
  | true =>
    rw [step_trivia hr ht]
    have hgrow : ∀ v ∈ r.output, v ∈ (r.readTrivia t).output := by
      intro v hv
      unfold readTrivia
      split
      next => exact List.mem_cons_of_mem t hv
      next => exact hv
      next => exact hv
    rcases h with rfl | h | h | ⟨hop, hl⟩
    · exact .inl (Scope.knows_of_isTrivia ht)
    · exact .inl h
    · exact .inr (.inl (hgrow u h))
    · exact .inr (.inr (by simp [readTrivia, hl, hop]))
  | false =>
    by_cases hm : t.kind = .method ∧ r.operand ≠ none
    · obtain ⟨hk, hop⟩ := hm
      obtain ⟨operand, hop⟩ := Option.ne_none_iff_exists'.mp hop
      rw [step_method hr hop hk] at hf ⊢
      obtain ⟨f, hbound, hmethod, _, hcall⟩ := startCall_of_fault hf
      rw [hcall]
      rcases h with rfl | h | h | ⟨hu, _⟩
      · exact .inl ⟨fun h => by simp [hk] at h, fun h => by simp [hk] at h,
          fun _ => by simp [hmethod]⟩
      · exact .inl h
      · exact .inr (.inl h)
      · cases hop.symm.trans hu
        cases hbound
    · have hm' : t.kind = .method → r.operand = none := by
        intro hk
        by_contra hne
        exact hm ⟨hk, hne⟩
      rw [step_significant hr ht hm'] at hf ⊢
      exact accounted_readToken operand_settle hf (h.imp id Accounted.settle)

theorem accounted_run (hf : (run scope r ts).fault = none)
    (h : u ∈ ts ∨ Accounted scope r u) : Accounted scope (run scope r ts) u := by
  induction ts generalizing r with
  | nil => exact h.resolve_left (by simp)
  | cons t ts ih =>
    have hstep : (step scope r t).fault = none := fault_of_run ts hf
    have hr : r.fault = none := fault_of_run [t] hstep
    refine ih hf ?_
    rcases h with h | h
    · rcases List.mem_cons.mp h with rfl | h
      · exact .inr (accounted_step hr hstep (.inl rfl))
      · exact .inl h
    · exact .inr (accounted_step hr hstep (.inr h))

end OperandReader

open OperandReader in
/-- What is read without an error is known, or passed on as it is. -/
theorem Operands.knows_or_mem {scope : Scope} {tokens : List Token} {t : Token}
    (hf : (ofTokens scope tokens).fault = none) (ht : t ∈ tokens) :
    scope.Knows t ∨ t ∈ (ofTokens scope tokens).tokens := by
  obtain ⟨hrun, hl, hfinish⟩ := run_of_finish (r := run scope start tokens) hf
  have hmem : (ofTokens scope tokens).tokens = (run scope start tokens).settle.output.reverse :=
    congrArg (fun r => r.output.reverse) hfinish
  rcases (accounted_run hrun (.inl ht)).settle with h | h | ⟨ho, _⟩
  · exact .inl h
  · exact .inr (by rw [hmem]; exact List.mem_reverse.mpr h)
  · simp [operand_settle] at ho

theorem RulePart.Derives.mem {part : RulePart} {depth : Nat} {ts : List Token} {t : Token}
    (h : part.Derives depth ts) (ht : t ∈ ts) :
    t.IsBound ∧ t.kind ≠ .function ∧ t.kind ≠ .method := by
  have hvalue : ∀ {u : Token}, u.kind.group = .value → u.kind ≠ .function ∧ u.kind ≠ .method :=
    fun hu => ⟨TokenKind.ne_of_group hu nofun, TokenKind.ne_of_group hu nofun⟩
  have hother : ∀ {u : Token} {k : TokenKind}, u.kind = k → k ≠ .identifier → k ≠ .function →
      k ≠ .method → u.IsBound ∧ u.kind ≠ .function ∧ u.kind ≠ .method := by
    rintro u k rfl hi hf hm
    exact ⟨fun h => absurd h hi, hf, hm⟩
  induction h with
  | comparison hl hlb ho hr hrb =>
    simp only [List.mem_cons, List.not_mem_nil, or_false] at ht
    rcases ht with rfl | rfl | rfl
    · exact ⟨hlb, hvalue hl⟩
    · exact hother ho nofun nofun nofun
    · exact ⟨hrb, hvalue hr⟩
  | group ho _ hc ih =>
    simp only [List.mem_cons, List.mem_append, List.not_mem_nil, or_false] at ht
    rcases ht with rfl | ht | rfl
    · exact hother ho nofun nofun nofun
    · exact ih ht
    · exact hother hc nofun nofun nofun
  | single _ ih => exact ih ht
  | join _ hk _ ihc iho =>
    simp only [List.mem_cons, List.mem_append] at ht
    rcases ht with ht | rfl | ht
    · exact ihc ht
    · exact hother hk nofun nofun nofun
    · exact iho ht

/-- Whatever a rule with a formula names is known. -/
theorem Scope.knows_of_ofOperands {scope : Scope} {tokens : List Token} {maxDepth : Nat}
    {f : Formula} (h : Formula.ofOperands maxDepth (Operands.ofTokens scope tokens) = .ok f) :
    ∀ t ∈ tokens, scope.Knows t := by
  intro t ht
  obtain ⟨hfault, hrule⟩ := Formula.ofOperands_eq_ok_iff_ofTokens.mp h
  rcases Operands.knows_or_mem hfault ht with hk | hm
  · exact hk
  · cases htriv : t.isTrivia with
    | true => exact Scope.knows_of_isTrivia htriv
    | false =>
      have hsig : t ∈ (Operands.ofTokens scope tokens).tokens.filter (!·.isTrivia) :=
        List.mem_filter.mpr ⟨hm, by simp [htriv]⟩
      rcases Formula.isRule_significant hrule with hnil | hchain
      · rw [hnil] at hsig
        cases hsig
      · obtain ⟨hb, hf, hm⟩ := hchain.mem hsig
        exact ⟨fun hi hv => absurd hv (hb hi), fun h => absurd h hf, fun h => absurd h hm⟩

end Verdict
