import Verdict.Operator

namespace Verdict

/-- What is left of a rule when its comparisons have been decided. A chain of operands without
parentheses leans to the left. -/
inductive Formula where
  /-- The formula of an empty rule, which does not hold. -/
  | empty
  | leaf (holds : Bool)
  | group (f : Formula)
  | binary (op : Connective) (left right : Formula)
  deriving DecidableEq, Repr

namespace Formula

def join (left : Formula) (op : Connective) (right : Formula) : Formula :=
  binary op left right

/-- The head of a chain and its links, which go before `links`. -/
def chainBefore : Formula → List (Connective × Formula) → Formula × List (Connective × Formula)
  | binary op left right, links => chainBefore left ((op, right) :: links)
  | f, links => (f, links)

/-- The head of a chain, and each further operand with the connective before it. -/
def chain (f : Formula) : Formula × List (Connective × Formula) :=
  f.chainBefore []

theorem sizeOf_chainBefore_head_le (f : Formula) (links : List (Connective × Formula)) :
    sizeOf (f.chainBefore links).1 ≤ sizeOf f := by
  fun_induction chainBefore f links with
  | case1 op left right links ih =>
    have hsize := binary.sizeOf_spec op left right
    omega
  | case2 => exact Nat.le_refl _

theorem sizeOf_chainBefore_link_lt (f : Formula) (links : List (Connective × Formula))
    (link : Connective × Formula) (h : link ∈ (f.chainBefore links).2) :
    link ∈ links ∨ sizeOf link.2 < sizeOf f := by
  fun_induction chainBefore f links with
  | case1 op left right links ih =>
    have hsize := binary.sizeOf_spec op left right
    rcases ih h with h | h
    · rcases List.mem_cons.mp h with rfl | h
      · exact Or.inr (by dsimp only; omega)
      · exact Or.inl h
    · exact Or.inr (by omega)
  | case2 => exact Or.inl h

theorem sizeOf_group_lt (f : Formula) : sizeOf f < sizeOf (group f) := by
  have hsize := group.sizeOf_spec f
  omega

theorem sizeOf_chain_head_lt (op : Connective) (left right : Formula) :
    sizeOf (binary op left right).chain.1 < sizeOf (binary op left right) := by
  have hhead : sizeOf (binary op left right).chain.1 ≤ sizeOf left :=
    sizeOf_chainBefore_head_le left [(op, right)]
  have hsize := binary.sizeOf_spec op left right
  omega

theorem sizeOf_chain_link_lt {f : Formula} {link : Connective × Formula} (h : link ∈ f.chain.2) :
    sizeOf link.2 < sizeOf f :=
  (sizeOf_chainBefore_link_lt f [] link h).resolve_left List.not_mem_nil

/-- The verdict of a formula: connectives are applied from left to right. -/
def verdict (f : Formula) : Bool :=
  match f with
  | empty => false
  | leaf holds => holds
  | group f => f.verdict
  | binary op left right =>
    let f := binary op left right
    f.chain.2.attach.foldl (fun holds link => link.1.1.apply holds link.1.2.verdict)
      f.chain.1.verdict
termination_by sizeOf f
decreasing_by
  · exact sizeOf_group_lt f
  · exact sizeOf_chain_link_lt link.2
  · exact sizeOf_chain_head_lt op left right

def digit (holds : Bool) : Char :=
  if holds then '1' else '0'

/-- The algebra of a formula: digits, connectives and parentheses. -/
def algebra (f : Formula) : List Char :=
  match f with
  | empty => []
  | leaf holds => [digit holds]
  | group f => '(' :: f.algebra ++ [')']
  | binary op left right =>
    let f := binary op left right
    f.chain.1.algebra ++
      f.chain.2.attach.flatMap fun link => link.1.1.symbol :: link.1.2.algebra
termination_by sizeOf f
decreasing_by
  · exact sizeOf_group_lt f
  · exact sizeOf_chain_head_lt op left right
  · exact sizeOf_chain_link_lt link.2

/-- The algebra of a formula as text. -/
def text (f : Formula) : String :=
  String.ofList f.algebra

end Formula

end Verdict
