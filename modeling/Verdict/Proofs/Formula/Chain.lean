import Verdict.Formula.Basic

namespace Verdict.Formula

theorem chainBefore_eq (f : Formula) (links : List (Connective × Formula)) :
    f.chainBefore links = (f.chain.1, f.chain.2 ++ links) := by
  induction f generalizing links with
  | empty => rfl
  | leaf holds => rfl
  | group f => rfl
  | binary op left right ihl =>
    change left.chainBefore ((op, right) :: links) =
      ((left.chainBefore [(op, right)]).1, (left.chainBefore [(op, right)]).2 ++ links)
    rw [ihl, ihl [(op, right)]]
    simp

@[simp] theorem chain_binary (op : Connective) (left right : Formula) :
    (binary op left right).chain = (left.chain.1, left.chain.2 ++ [(op, right)]) :=
  chainBefore_eq left [(op, right)]

theorem chain_of_ne_binary {f : Formula} (h : ∀ op left right, f ≠ binary op left right) :
    f.chain = (f, []) := by
  cases f with
  | empty => rfl
  | leaf holds => rfl
  | group f => rfl
  | binary op left right => exact absurd rfl (h op left right)

/-- The head of a chain is no chain of more operands itself. -/
theorem chain_head_ne_binary (f : Formula) (op : Connective) (left right : Formula) :
    f.chain.1 ≠ binary op left right := by
  induction f with
  | empty => exact nofun
  | leaf holds => exact nofun
  | group f => exact nofun
  | binary op' left' right' ihl =>
    rw [chain_binary]
    exact ihl

/-- A head with links joined to it, one after another. -/
def joinAll (first : Formula) (links : List (Connective × Formula)) : Formula :=
  links.foldl (fun left link => left.join link.1 link.2) first

theorem joinAll_concat (first : Formula) (links : List (Connective × Formula))
    (op : Connective) (right : Formula) :
    first.joinAll (links ++ [(op, right)]) = binary op (first.joinAll links) right := by
  rw [joinAll, List.foldl_append]
  rfl

theorem joinAll_chain (f : Formula) : f.chain.1.joinAll f.chain.2 = f := by
  induction f with
  | empty => rfl
  | leaf holds => rfl
  | group f => rfl
  | binary op left right ihl => rw [chain_binary, joinAll_concat, ihl]

/-- Links that are joined go to the end of the chain. -/
theorem chain_joinAll (first : Formula) (links : List (Connective × Formula)) :
    (first.joinAll links).chain = (first.chain.1, first.chain.2 ++ links) := by
  induction links generalizing first with
  | nil => rw [List.append_nil, joinAll, List.foldl_nil]
  | cons link links ih =>
    obtain ⟨op, right⟩ := link
    have hstep : first.joinAll ((op, right) :: links) = (binary op first right).joinAll links := rfl
    rw [hstep, ih, chain_binary, List.append_assoc, List.singleton_append]

/-- The chain of a formula is the one way to join the formula from a head that is no chain of more
operands: its links are those of the joining, in the same order, whatever stands in them. -/
theorem chain_eq_iff_joinAll (f first : Formula) (links : List (Connective × Formula)) :
    f.chain = (first, links) ↔
      (∀ op left right, first ≠ binary op left right) ∧ first.joinAll links = f := by
  refine ⟨fun h => ?_, fun ⟨hfirst, hjoin⟩ => ?_⟩
  · have hhead := chain_head_ne_binary f
    have hjoin := joinAll_chain f
    rw [h] at hhead hjoin
    exact ⟨hhead, hjoin⟩
  · rw [← hjoin, chain_joinAll, chain_of_ne_binary hfirst, List.nil_append]

@[simp] theorem verdict_empty : empty.verdict = false := by rw [verdict]

@[simp] theorem verdict_leaf (holds : Bool) : (leaf holds).verdict = holds := by rw [verdict]

@[simp] theorem verdict_group (f : Formula) : (group f).verdict = f.verdict := by rw [verdict]

theorem verdict_eq_foldl (f : Formula) :
    f.verdict = f.chain.2.foldl (fun holds link => link.1.apply holds link.2.verdict)
      f.chain.1.verdict := by
  cases f with
  | empty => rfl
  | leaf holds => rfl
  | group f => rfl
  | binary op left right =>
    rw [verdict]
    exact List.foldl_attach
      (f := fun holds (link : Connective × Formula) => link.1.apply holds link.2.verdict)

@[simp] theorem verdict_binary (op : Connective) (left right : Formula) :
    (binary op left right).verdict = op.apply left.verdict right.verdict := by
  rw [verdict_eq_foldl, chain_binary, List.foldl_append, ← verdict_eq_foldl left]
  rfl

@[simp] theorem algebra_empty : empty.algebra = [] := by rw [algebra]

@[simp] theorem algebra_leaf (holds : Bool) : (leaf holds).algebra = [digit holds] := by
  rw [algebra]

@[simp] theorem algebra_group (f : Formula) :
    (group f).algebra = '(' :: (f.algebra ++ [')']) := by
  rw [algebra, List.cons_append]

theorem algebra_eq_flatMap (f : Formula) :
    f.algebra = f.chain.1.algebra ++
      f.chain.2.flatMap fun link => link.1.symbol :: link.2.algebra := by
  cases f with
  | empty => simp [chain, chainBefore]
  | leaf holds => simp [chain, chainBefore]
  | group f => simp [chain, chainBefore]
  | binary op left right =>
    rw [algebra]
    rw [List.flatMap_subtype (g := fun link : Connective × Formula =>
      link.1.symbol :: link.2.algebra) (fun _ _ => rfl), List.unattach_attach]

@[simp] theorem algebra_binary (op : Connective) (left right : Formula) :
    (binary op left right).algebra = left.algebra ++ op.symbol :: right.algebra := by
  rw [algebra_eq_flatMap, chain_binary, List.flatMap_append, ← List.append_assoc,
    ← algebra_eq_flatMap left]
  simp

/-- The verdict of a formula by plain recursion, without its chain. -/
def plainVerdict : Formula → Bool
  | empty => false
  | leaf holds => holds
  | group f => f.plainVerdict
  | binary op left right => op.apply left.plainVerdict right.plainVerdict

/-- The text of a formula by plain recursion. -/
def plainText : Formula → String
  | empty => ""
  | leaf holds => if holds then "1" else "0"
  | group f => "(" ++ f.plainText ++ ")"
  | binary op left right => left.plainText ++ String.singleton op.symbol ++ right.plainText

theorem verdict_eq_plainVerdict (f : Formula) : f.verdict = f.plainVerdict := by
  induction f with
  | empty => rw [verdict_empty, plainVerdict]
  | leaf holds => rw [verdict_leaf, plainVerdict]
  | group f ih => rw [verdict_group, ih, plainVerdict]
  | binary op left right ihl ihr => rw [verdict_binary, ihl, ihr, plainVerdict]

theorem text_binary (op : Connective) (left right : Formula) :
    (binary op left right).text = left.text ++ String.singleton op.symbol ++ right.text := by
  rw [text, algebra_binary, ← List.singleton_append, ← List.append_assoc, String.ofList_append,
    String.ofList_append]
  rfl

theorem text_eq_plainText (f : Formula) : f.text = f.plainText := by
  induction f with
  | empty => rw [text, algebra_empty, plainText]
  | leaf holds =>
    rw [text, algebra_leaf, plainText]
    cases holds <;> rfl
  | group f ih =>
    rw [text, algebra_group, ← List.singleton_append, ← List.append_assoc, String.ofList_append,
      String.ofList_append, plainText, ← ih]
    rfl
  | binary op left right ihl ihr => rw [text_binary, ihl, ihr, plainText]

/-- Working out a formula along its chain is the same as recursion on its two sides, whatever stands
on either of them. -/
theorem verdict_text_by_sides :
    (∀ (op : Connective) (left right : Formula),
      (binary op left right).verdict = op.apply left.verdict right.verdict ∧
        (binary op left right).text = left.text ++ String.singleton op.symbol ++ right.text) ∧
    ∀ f : Formula, f.verdict = f.plainVerdict ∧ f.text = f.plainText :=
  ⟨fun op left right => ⟨verdict_binary op left right, text_binary op left right⟩,
    fun f => ⟨verdict_eq_plainVerdict f, text_eq_plainText f⟩⟩

/-- The operands of a chain. -/
def IsOperand : Formula → Prop
  | leaf _ | group _ => True
  | empty | binary _ _ _ => False

/-- The chains that tokens can form: the head and the operand after each connective is a verdict or
a group, and a group holds a chain again. -/
inductive Chained : Formula → Prop
  | leaf (holds : Bool) : Chained (leaf holds)
  | group {f : Formula} : Chained f → Chained (group f)
  | binary {op : Connective} {left right : Formula} :
    Chained left → Chained right → right.IsOperand → Chained (binary op left right)

/-- The formulas of rules: only a whole rule is empty. -/
def Shaped (f : Formula) : Prop := f = empty ∨ f.Chained

end Verdict.Formula
