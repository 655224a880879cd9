import Mathlib.Data.List.Forall2
import Verdict.Proofs.Operands.Reading

namespace Verdict

theorem Term.values?_concat (scope : Scope) (items : List Term) (item : Term) :
    Term.values? scope (items ++ [item]) =
      (Term.values? scope items).bind fun vs => (item.value? scope).map fun v => vs ++ [v] := by
  induction items with
  | nil => cases h : item.value? scope <;> simp [Term.values?, h]
  | cons first rest ih =>
    simp only [List.cons_append, Term.values?, ih]
    cases first.value? scope <;> cases Term.values? scope rest <;> cases item.value? scope <;> simp

/-- The error of a list that cannot be completed is that of a call. -/
theorem Opening.complete_error {opening : Opening} {items : List Value} {e : RuleError}
    (h : opening.complete items = .error e) :
    ∃ cause location, e = .badType (.call cause) location := by
  cases opening with
  | array opener => cases h
  | function f opener =>
    simp only [complete] at h
    split at h
    next => cases h
    next cause _ =>
      cases h
      exact ⟨cause, _, rfl⟩
  | method f opener receiver =>
    simp only [complete] at h
    split at h
    next => cases h
    next cause _ =>
      cases h
      exact ⟨cause, _, rfl⟩

theorem exists_value_of_yields {scope : Scope} {pieces : List Piece} {ts : List Token}
    {first : Token} {term : Term} (h : List.Forall₂ (Piece.Yields scope) pieces ts)
    (hm : .value first term ∈ pieces) : ∃ v, term.value? scope = some v := by
  induction h with
  | nil => cases hm
  | cons hp _ ih =>
    rcases List.mem_cons.mp hm with rfl | hm
    · obtain ⟨v, hv, _⟩ := hp
      exact ⟨v, hv⟩
    · exact ih hm

namespace OperandReader

variable {scope : Scope} {r : OperandReader} {t : Token}

/-- The reading ended with a call that failed. -/
def CallFailed (r : OperandReader) : Prop :=
  ∃ cause location, r.fault = some (.badType (.call cause) location)

/-- The reader is as expected; or else something is lost, and a call failed. -/
def Outcome (lost : Prop) (r : OperandReader) (expected : OperandReader → Prop) : Prop :=
  (lost ∧ r.CallFailed) ∨ expected r

theorem Outcome.append {L M : Prop} {P Q : OperandReader → Prop} {ts us : List Token}
    (h : Outcome L (run scope r ts) P) (hl : L → M)
    (hn : ∀ r', P r' → Outcome M (run scope r' us) Q) :
    Outcome M (run scope r (ts ++ us)) Q := by
  rw [run_append]
  rcases h with ⟨hlost, cause, location, hf⟩ | hp
  · rw [run_of_fault (by simp [hf])]
    exact .inl ⟨hl hlost, cause, location, hf⟩
  · exact hn _ hp

theorem Outcome.mono {L M : Prop} {P Q : OperandReader → Prop} (h : Outcome L r P) (hl : L → M)
    (hn : ∀ r', P r' → Q r') : Outcome M r Q :=
  h.imp (And.imp hl id) (hn r)

theorem startValue_atom (hg : t.kind.group = .value) (ht : scope.Knows t) :
    ∃ v tok, scope.atomValue? t = some v ∧ tok.Carries t v ∧
      startValue scope r t = r.hold tok true := by
  unfold startValue
  split
  next hk => simp [hk, TokenKind.group] at hg
  next hk => simp [hk, TokenKind.group] at hg
  next hk hv =>
    obtain ⟨v, hb⟩ := Option.isSome_iff_exists.mp (ht.bound hk hv)
    exact ⟨v, .resolved v t.raw t.location, by simp [Scope.atomValue?, hv, hk, hb],
      ⟨TokenKind.group_ofValue v, rfl, rfl, rfl⟩, by simp [hb]⟩
  next v hv _ _ =>
    exact ⟨v, t, by simp [Scope.atomValue?, hv], ⟨hg, rfl, rfl, hv⟩, rfl⟩
  next hv _ _ hk =>
    exact ⟨.string t.raw, .resolved (.string t.raw) t.raw t.location,
      by simp_all [Scope.atomValue?], ⟨rfl, rfl, rfl, rfl⟩, rfl⟩

/-- What the tokens of a phrase make of a reader that is ready for it. -/
def Reads (scope : Scope) (r : OperandReader) (ts : List Token) : Phrase → Prop
  | .value term => Outcome (term.value? scope = none) (run scope r ts) fun r' =>
      ∃ first v tok, ts.head? = some first ∧ term.value? scope = some v ∧ tok.Carries first v ∧
        r' = r.hold tok true
  | .series items => ∀ list lists, r.lists = list :: lists → list.items = [] →
      Outcome (Term.values? scope items = none) (run scope r ts) fun r' =>
        ∃ vs v tok, Term.values? scope items = some (vs ++ [v]) ∧ tok.value = some v ∧
          r' = { r with lists := { list with items := vs.reverse } :: lists }.hold tok true
  | .list closer items => ∀ list lists, r.lists = list :: lists → list.items = [] →
      list.opening.closer = closer →
      Outcome (∀ vs, Term.values? scope items = some vs → ∃ e, list.opening.complete vs = .error e)
        (run scope r ts) fun r' => ∃ vs tok, Term.values? scope items = some vs ∧
          list.opening.complete vs = .ok tok ∧ r' = { r with lists := lists }.hold tok true

section Steps

variable {list : OpenList} {lists : List OpenList}

theorem Ready.opened (hr : r.Ready) (opening : Opening) :
    Ready { r with lists := ⟨opening, [], false⟩ :: r.lists } :=
  ⟨hr.fault, hr.operand, hr.trivia, by simp⟩

/-- A token that ends a list completes it, if no element is missing. -/
theorem step_close (scope : Scope) (list : OpenList) (hf : r.fault = none)
    (hs : r.settle.lists = list :: lists) (hc : list.commaExpected = true ∨ list.items = [])
    (ht : t.kind = list.opening.closer) :
    (∃ tok, list.opening.complete list.items.reverse = .ok tok ∧
      step scope r t = { r.settle with lists := lists }.hold tok true) ∨
    ∃ cause location,
      list.opening.complete list.items.reverse = .error (.badType (.call cause) location) ∧
        step scope r t = r.settle.fail (.badType (.call cause) location) := by
  have htt : t.isTrivia = false := by
    rw [Token.isTrivia, ht]
    exact list.opening.isTrivia_closer
  have hm : t.kind ≠ .method := by
    rw [ht]
    exact list.opening.closer_ne_method
  have hi : (!list.commaExpected && !list.items.isEmpty) = false := by
    rcases hc with h | h <;> simp [h]
  rw [step_significant hf htt (fun h => absurd h hm)]
  simp only [readToken, hs, readInList, ht, if_pos, closeList, hi, Bool.false_eq_true, if_false]
  cases h : list.opening.complete list.items.reverse with
  | ok tok => exact .inl ⟨tok, rfl, rfl⟩
  | error e =>
    obtain ⟨cause, location, rfl⟩ := Opening.complete_error h
    exact .inr ⟨cause, location, rfl, rfl⟩

theorem step_comma (hf : r.fault = none) (htr : r.trivia = []) (hl : r.lists = list :: lists)
    {tok : Token} (ht : t.kind = .comma) :
    step scope (r.hold tok true) t =
      { r with
        lists := ⟨list.opening, tok.value.getD .undefined :: list.items, false⟩ :: lists
        operand := none } := by
  have htt : t.isTrivia = false := by simp [Token.isTrivia, ht, TokenKind.isTrivia]
  have hm : t.kind ≠ .method := by simp [ht]
  rw [step_significant (by exact hf) htt (fun h => absurd h hm)]
  have hc := list.opening.closer_ne_comma
  simp [readToken, settle, hold, hl, readInList, ht, Ne.symm hc, TokenKind.startsValue,
    TokenKind.group, htr]

end Steps

section Phrases

variable {ts us g g' : List Token} {items : List Term} {item receiver : Term}

theorem openList_ready (hr : r.Ready) (hd : r.lists.length < scope.maxDepth) (opening : Opening)
    (operand : Option Operand) (trivia : List Token) :
    openList scope { r with operand := operand, trivia := trivia } opening t =
      { r with lists := ⟨opening, [], false⟩ :: r.lists } := by
  rw [openList_ok (by exact hd)]
  simp [← hr.operand, ← hr.trivia]

/-- A list that was opened is completed by the tokens that spell the rest of it. -/
theorem outcome_list {s : OperandReader} {opening : Opening}
    (hs : step scope s t = { r with lists := ⟨opening, [], false⟩ :: r.lists })
    (h : Reads scope { r with lists := ⟨opening, [], false⟩ :: r.lists } ts
      (.list opening.closer items)) :
    Outcome (∀ vs, Term.values? scope items = some vs → ∃ e, opening.complete vs = .error e)
      (run scope s (t :: ts)) fun r' => ∃ vs tok, Term.values? scope items = some vs ∧
        opening.complete vs = .ok tok ∧ r' = r.hold tok true := by
  rw [run_cons, hs]
  exact h _ _ rfl rfl rfl

theorem reads_atom (hr : r.Ready) (hg : t.kind.group = .value) (ht : scope.Knows t) :
    Reads scope r [t] (.value (.atom t)) := by
  obtain ⟨v, tok, hv, hc, hs⟩ := startValue_atom (r := r) hg ht
  refine .inr ⟨t, v, tok, rfl, by simpa [Term.value?] using hv, hc, ?_⟩
  rw [run_cons, run_nil, step_start hr (TokenKind.startsValue_of_group hg), hs]

theorem reads_array (hr : r.Ready) (hd : r.lists.length < scope.maxDepth)
    (ht : t.kind = .openBracket)
    (h : Reads scope { r with lists := ⟨.array t, [], false⟩ :: r.lists } ts
      (.list .closeBracket items)) : Reads scope r (t :: ts) (.value (.array items)) := by
  have hs : step scope r t = { r with lists := ⟨.array t, [], false⟩ :: r.lists } := by
    rw [step_start hr (by simp [TokenKind.startsValue, ht])]
    simp only [startValue, ht]
    exact openList_ready hr hd _ r.operand r.trivia
  unfold Reads
  refine (outcome_list hs h).mono ?_ ?_
  · intro hlost
    cases hvs : Term.values? scope items with
    | none => simp [Term.value?, hvs]
    | some vs =>
      obtain ⟨e, he⟩ := hlost vs hvs
      cases he
  rintro _ ⟨vs, tok, hvs, hcomp, rfl⟩
  cases hcomp
  exact ⟨t, .array vs, .resolved (.array vs) t.raw t.location, rfl, by simp [Term.value?, hvs],
    ⟨rfl, rfl, rfl, rfl⟩, rfl⟩

theorem reads_function (hr : r.Ready) (hd : r.lists.length < scope.maxDepth)
    (ht : t.kind = .function) {f : Callable} (hf : scope.registry.function? t.callee = some f)
    (h : Reads scope { r with lists := ⟨.function f t, [], false⟩ :: r.lists } ts
      (.list .closeParen items)) : Reads scope r (t :: ts) (.value (.function t items)) := by
  have hs : step scope r t = { r with lists := ⟨.function f t, [], false⟩ :: r.lists } := by
    rw [step_start hr (by simp [TokenKind.startsValue, ht])]
    simp only [startValue, ht, hf]
    exact openList_ready hr hd _ r.operand r.trivia
  unfold Reads
  refine (outcome_list hs h).mono ?_ ?_
  · intro hlost
    cases hvs : Term.values? scope items with
    | none => simp [Term.value?, hf, hvs]
    | some vs =>
      obtain ⟨e, he⟩ := hlost vs hvs
      simp only [Opening.complete] at he
      split at he
      next => cases he
      next cause hc => simp [Term.value?, hf, hvs, hc, Except.toOption]
  rintro _ ⟨vs, tok, hvs, hcomp, rfl⟩
  simp only [Opening.complete] at hcomp
  split at hcomp
  next v hv =>
    cases hcomp
    exact ⟨t, v, .resolved v t.raw t.location, rfl,
      by simp [Term.value?, hf, hvs, hv, Except.toOption],
      ⟨TokenKind.group_ofValue v, rfl, rfl, rfl⟩, rfl⟩
  next => cases hcomp

theorem reads_method (hr : r.Ready) (hd : r.lists.length < scope.maxDepth)
    (hus : Reads scope r us (.value receiver)) (hg : Gap g) (ht : t.kind = .method) {f : Callable}
    (hf : scope.registry.method? t.callee = some f)
    (h : ∀ tok, Reads scope { r with lists := ⟨.method f t tok, [], false⟩ :: r.lists } ts
      (.list .closeParen items)) :
    Reads scope r (us ++ g ++ t :: ts) (.value (.method receiver t items)) := by
  rw [List.append_assoc]
  unfold Reads at hus ⊢
  refine Outcome.append hus (fun hlost => by simp [Term.value?, hlost]) ?_
  rintro _ ⟨first, v, tok, hhead, hv, hc, rfl⟩
  rw [run_append, run_gap_held (by exact hr.fault) rfl hg]
  have hs : step scope { r.hold tok true with
      trivia := if (r.hold tok true).lists = [] then g.reverse ++ (r.hold tok true).trivia
        else (r.hold tok true).trivia } t =
      { r with lists := ⟨.method f t tok, [], false⟩ :: r.lists } := by
    rw [step_method (by exact hr.fault) rfl ht]
    simp only [startCall, Bool.not_true, Bool.false_eq_true, if_false, hf]
    exact openList_ready hr hd _ _ _
  refine (outcome_list hs (h tok)).mono ?_ ?_
  · intro hlost
    cases hvs : Term.values? scope items with
    | none => simp [Term.value?, hv, hf, hvs]
    | some vs =>
      obtain ⟨e, he⟩ := hlost vs hvs
      simp only [Opening.complete, hc.value, Option.getD_some] at he
      split at he
      next => cases he
      next cause herror => simp [Term.value?, hv, hf, hvs, herror, Except.toOption]
  rintro _ ⟨vs, out, hvs, hcomp, rfl⟩
  simp only [Opening.complete, hc.value, Option.getD_some] at hcomp
  split at hcomp
  next w hw =>
    cases hcomp
    exact ⟨first, w, .resolved w tok.raw tok.location, by simp [hhead],
      by simp [Term.value?, hv, hf, hvs, hw, Except.toOption],
      ⟨TokenKind.group_ofValue w, hc.raw, hc.location, rfl⟩, rfl⟩
  next => cases hcomp

theorem reads_one (hr : r.Ready) (hg : Gap g)
    (h : Reads scope r ts (.value item)) : Reads scope r (g ++ ts) (.series [item]) := by
  intro list lists hl hi
  unfold Reads at h
  rw [run_append, run_gap_inside hr.fault (by simp [hl]) hg]
  refine h.mono (fun hlost => by simp [Term.values?, hlost]) ?_
  rintro _ ⟨_, v, tok, _, hv, hc, rfl⟩
  refine ⟨[], v, tok, by simp [Term.values?, hv], hc.value, ?_⟩
  rw [List.reverse_nil, ← hi, ← hl]

theorem reads_more (hr : r.Ready) (hg : Gap g) (ht : t.kind = .comma) (hg' : Gap g')
    (hts : Reads scope r ts (.series items))
    (hus : ∀ list lists, lists.length + 1 = r.lists.length → list.commaExpected = false →
      Reads scope { r with lists := list :: lists } us (.value item)) :
    Reads scope r (ts ++ g ++ t :: (g' ++ us)) (.series (items ++ [item])) := by
  intro list lists hl hi
  rw [List.append_assoc]
  refine Outcome.append (hts list lists hl hi)
    (fun hlost => by simp [Term.values?_concat, hlost]) ?_
  rintro _ ⟨vs, v, tok, hvs, hv, rfl⟩
  rw [run_append, run_gap_inside (by exact hr.fault) (by simp [hold]) hg, run_cons,
    step_comma (by exact hr.fault) (by exact hr.trivia) rfl ht, run_append,
    run_gap_inside (by exact hr.fault) (by simp) hg']
  have hvalue := hus ⟨list.opening, v :: vs.reverse, false⟩ lists (by simp [hl]) rfl
  unfold Reads at hvalue
  simp only [hv, Option.getD_some, ← hr.operand]
  refine hvalue.mono (fun hlost => by simp [Term.values?_concat, hvs, hlost]) ?_
  rintro _ ⟨_, w, out, _, hw, hc, rfl⟩
  refine ⟨vs ++ [v], w, out, by simp [Term.values?_concat, hvs, hw], hc.value, ?_⟩
  have hexpected := hr.comma list (by simp [hl])
  simp [hold, hexpected]

theorem reads_none (hr : r.Ready) (hg : Gap g) : Reads scope r (g ++ [t]) (.list t.kind []) := by
  intro list lists hl hi hcloser
  rw [run_append, run_gap_inside hr.fault (by simp [hl]) hg, run_cons, run_nil]
  have hs := settle_of_operand_none hr.operand
  rcases step_close scope list hr.fault (by rw [hs, hl]) (.inr hi) hcloser.symm with
    ⟨tok, hcomp, hstep⟩ | ⟨cause, location, hcomp, hstep⟩
  · refine .inr ⟨[], tok, rfl, by simpa [hi] using hcomp, ?_⟩
    rw [hstep, hs]
  · refine .inl ⟨fun vs hvs => ?_, cause, location, by rw [hstep]; rfl⟩
    cases hvs
    exact ⟨_, by simpa [hi] using hcomp⟩

theorem reads_some (hr : r.Ready) (hg : Gap g) (hts : Reads scope r ts (.series items)) :
    Reads scope r (ts ++ g ++ [t]) (.list t.kind items) := by
  intro list lists hl hi hcloser
  rw [List.append_assoc]
  refine Outcome.append (hts list lists hl hi) (fun hlost vs hvs => by simp [hlost] at hvs) ?_
  rintro _ ⟨vs, v, tok, hvs, hv, rfl⟩
  rw [run_append, run_gap_inside (by exact hr.fault) (by simp [hold]) hg, run_cons, run_nil]
  have hs : settle ({ r with lists := { list with items := vs.reverse } :: lists }.hold tok true) =
      { r with lists := ⟨list.opening, v :: vs.reverse, true⟩ :: lists } := by
    simp [settle, hold, hv, hr.operand, hr.trivia]
  have hf : ({ r with lists := { list with items := vs.reverse } :: lists }.hold tok true).fault =
    none := hr.fault
  rcases step_close scope ⟨list.opening, v :: vs.reverse, true⟩ (t := t) hf
    (by rw [hs]) (.inl rfl) hcloser.symm with
    ⟨out, hcomp, hstep⟩ | ⟨cause, location, hcomp, hstep⟩
  · refine .inr ⟨vs ++ [v], out, hvs, by simpa using hcomp, ?_⟩
    rw [hstep, hs]
  · refine .inl ⟨fun ws hws => ?_, cause, location, by rw [hstep]; rfl⟩
    cases hvs.symm.trans hws
    exact ⟨_, by simpa using hcomp⟩

/-- Tokens that spell a phrase are read as it. -/
theorem reads_of_spells {depth : Nat} {phrase : Phrase} (h : Spells depth ts phrase)
    (hr : r.Ready) (hd : r.lists.length + depth ≤ scope.maxDepth)
    (hk : ∀ t ∈ ts, scope.Knows t) : Reads scope r ts phrase := by
  induction h generalizing r with
  | atom hg => exact reads_atom hr hg (hk _ (by simp))
  | array ht _ ih =>
    refine reads_array hr (by omega) ht (ih (hr.opened _) ?_ ?_)
    · simp only [List.length_cons]
      omega
    · exact fun u hu => hk u (List.mem_cons_of_mem _ hu)
  | @function _ t _ _ ht _ ih =>
    obtain ⟨f, hf⟩ := Option.isSome_iff_exists.mp ((hk t (by simp)).function ht)
    refine reads_function hr (by omega) ht hf (ih (hr.opened _) ?_ ?_)
    · simp only [List.length_cons]
      omega
    · exact fun u hu => hk u (List.mem_cons_of_mem _ hu)
  | @method _ t _ _ _ _ _ _ hg ht _ ihus ihts =>
    obtain ⟨f, hf⟩ := Option.isSome_iff_exists.mp ((hk t (by simp)).method ht)
    have hus := ihus hr hd (fun u hu => hk u (by simp [hu]))
    refine reads_method hr (by omega) hus hg ht hf (fun tok => ihts (hr.opened _) ?_ ?_)
    · simp only [List.length_cons]
      omega
    · exact fun u hu => hk u (by simp [hu])
  | one hg _ ih => exact reads_one hr hg (ih hr hd (fun u hu => hk u (by simp [hu])))
  | more _ hg ht hg' _ ihts ihus =>
    refine reads_more hr hg ht hg' (ihts hr hd (fun u hu => hk u (by simp [hu]))) ?_
    intro list lists hl hc
    refine ihus ⟨hr.fault, hr.operand, hr.trivia, by simpa using hc⟩ ?_ ?_
    · simp only [List.length_cons]
      omega
    · exact fun u hu => hk u (by simp [hu])
  | none hg => exact reads_none hr hg
  | some _ hg ih => exact reads_some hr hg (ih hr hd (fun u hu => hk u (by simp [hu])))

end Phrases

section Pieces

/-- The reader between two parts of a rule. -/
def between (output : List Token) : OperandReader :=
  ⟨[], none, [], output, none⟩

theorem between_ready (output : List Token) : (between output).Ready :=
  ⟨rfl, rfl, rfl, by simp [between]⟩

/-- Unless a method call follows, an operand that is kept ends as a token of its own. -/
theorem finish_run_held {tok : Token} {bound : Bool} {trivia output rest : List Token}
    (h : callFollows rest = false) :
    (run scope ⟨[], some ⟨tok, bound⟩, trivia, output, none⟩ rest).finish =
      (run scope (between (trivia ++ tok :: output)) rest).finish := by
  induction rest generalizing trivia with
  | nil => rfl
  | cons t rest ih =>
    cases ht : t.isTrivia with
    | true =>
      have hrest : callFollows rest = false := by simpa [callFollows, ht] using h
      have hout : (between (trivia ++ tok :: output)).readTrivia t =
        between (t :: trivia ++ tok :: output) := rfl
      rw [run_cons, run_cons, step_trivia rfl ht, step_trivia rfl ht, hout, ← ih hrest]
      rfl
    | false =>
      have hm : t.kind ≠ .method := by simpa [callFollows, ht] using h
      rw [run_cons, run_cons, step_significant rfl ht (fun h => absurd h hm),
        step_significant rfl ht (fun h => absurd h hm)]
      rfl

/-- Tokens that split into parts are read to their end, if all the parts have a value, and each part
becomes the token that it should. -/
theorem finish_run_of_splits {ts : List Token} {pieces : List Piece}
    (h : Splits scope.maxDepth ts pieces) (hk : ∀ t ∈ ts, scope.Knows t) (output : List Token) :
    Outcome (∃ first term, .value first term ∈ pieces ∧ term.value? scope = none)
      (run scope (between output) ts).finish fun r' => r'.fault = none ∧
      ∃ tokens, r'.output = tokens.reverse ++ output ∧
        List.Forall₂ (Piece.Yields scope) pieces tokens := by
  induction h generalizing output with
  | nil => exact .inr ⟨rfl, [], rfl, .nil⟩
  | @other t ts pieces ht _ ih =>
    rw [run_cons, step_emit rfl rfl rfl ht]
    refine (ih (fun u hu => hk u (by simp [hu])) (t :: output)).mono ?_ ?_
    · rintro ⟨first, term, hm, hlost⟩
      exact ⟨first, term, by simp [hm], hlost⟩
    rintro r' ⟨hf, tokens, hout, hall⟩
    exact ⟨hf, t :: tokens, by simp [hout], .cons rfl hall⟩
  | @value t ts rest term pieces hterm hrest _ ih =>
    have hread := reads_of_spells hterm (between_ready output) (by simp [between])
      (fun u hu => hk u (by simp only [List.mem_append, hu, true_or]))
    rw [run_append]
    unfold Reads at hread
    rcases hread with ⟨hlost, cause, location, hf⟩ | ⟨first, v, tok, hfirst, hv, hc, hheld⟩
    · have hsome : (run scope (between output) (t :: ts)).fault.isSome := by
        rw [hf, Option.isSome_some]
      rw [run_of_fault hsome, finish_of_fault hsome]
      exact .inl ⟨⟨t, term, by simp, hlost⟩, cause, location, hf⟩
    · cases hfirst
      have hfinish : (run scope ((between output).hold tok true) rest).finish =
        (run scope (between (tok :: output)) rest).finish := finish_run_held hrest
      rw [hheld, hfinish]
      refine (ih (fun u hu => hk u (by simp [hu])) (tok :: output)).mono ?_ ?_
      · rintro ⟨first, term, hm, hlost⟩
        exact ⟨first, term, by simp [hm], hlost⟩
      rintro r' ⟨hf, tokens, hout, hall⟩
      exact ⟨hf, tok :: tokens, by simp [hout], .cons ⟨v, hv, hc⟩ hall⟩

end Pieces

end OperandReader

end Verdict
