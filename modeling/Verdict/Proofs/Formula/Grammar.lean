import Verdict.Proofs.Formula.Building

namespace Verdict

/-- A variable has to have a value. -/
def Token.IsBound (t : Token) : Prop := t.kind = .identifier → t.value ≠ none

/-- The value that a token stands for in a comparison. -/
def Token.operand (t : Token) : Value := t.value.getD .undefined

/-- The parts of a rule: a comparison or a group, and a chain of them. -/
inductive RulePart where
  | operand
  | chain

/-- The tokens that make up a part of a rule, with parentheses nested at most this deep. Tokens that
only separate others are left out. -/
inductive RulePart.Derives : RulePart → Nat → List Token → Prop
  | comparison {depth : Nat} {left op right : Token} {c : Comparison} :
    left.kind.group = .value → left.IsBound → op.kind = .comparison c →
    right.kind.group = .value → right.IsBound →
    (c = .member → ∃ items, right.operand = .array items) →
    Derives .operand depth [left, op, right]
  | group {depth : Nat} {opener closer : Token} {ts : List Token} :
    opener.kind = .openParen → Derives .chain depth ts → closer.kind = .closeParen →
    Derives .operand (depth + 1) (opener :: (ts ++ [closer]))
  | single {depth : Nat} {ts : List Token} : Derives .operand depth ts → Derives .chain depth ts
  | join {depth : Nat} {t : Token} {op : Connective} {ts us : List Token} :
    Derives .chain depth ts → t.kind = .connective op → Derives .operand depth us →
    Derives .chain depth (ts ++ t :: us)

/-- The tokens of a rule. -/
def IsRule (depth : Nat) (ts : List Token) : Prop := ts = [] ∨ RulePart.chain.Derives depth ts

/-- The digit of a comparison, nothing if it has no answer. -/
def writtenDigit (left op right : Token) : List Char :=
  ((op.kind.comparison?.bind fun c => c.holds? left.operand right.operand).map
    Formula.digit).toList

/-- The algebra that tokens write down: a digit for the three tokens of a comparison, and one
character for every connective and every parenthesis. -/
def written : List Token → List Char
  | [] => []
  | t :: rest =>
    match t.kind with
    | .openParen => '(' :: written rest
    | .closeParen => ')' :: written rest
    | .connective op => op.symbol :: written rest
    | _ =>
      match rest with
      | op :: right :: rest => writtenDigit t op right ++ written rest
      | _ => []

theorem written_comparison {left : Token} (h : left.kind.group = .value) (op right : Token)
    (rest : List Token) :
    written (left :: op :: right :: rest) = writtenDigit left op right ++ written rest := by
  rw [written]
  split
  next hk => simp [hk, TokenKind.group] at h
  next hk => simp [hk, TokenKind.group] at h
  next hk => simp [hk, TokenKind.group] at h
  next => rfl

theorem written_connective {t : Token} {op : Connective} (h : t.kind = .connective op)
    (rest : List Token) : written (t :: rest) = op.symbol :: written rest := by
  rw [written.eq_def]
  simp only [h]

theorem written_open {t : Token} (h : t.kind = .openParen) (rest : List Token) :
    written (t :: rest) = '(' :: written rest := by
  rw [written.eq_def]
  simp only [h]

theorem written_close {t : Token} (h : t.kind = .closeParen) (rest : List Token) :
    written (t :: rest) = ')' :: written rest := by
  rw [written.eq_def]
  simp only [h]

theorem RulePart.Derives.written_append {part : RulePart} {depth : Nat} {ts : List Token}
    (h : part.Derives depth ts) (us : List Token) :
    written (ts ++ us) = written ts ++ written us := by
  induction h generalizing us with
  | @comparison depth left op right c hl =>
    simp [written_comparison hl, show written [] = [] from rfl]
  | @group depth opener closer ts ho _ hc ih =>
    simp [written_open ho, written_close hc, ih, show written [] = [] from rfl]
  | single _ ih => exact ih us
  | @join depth t op ts vs _ ht _ ihc iho =>
    simp [written_connective ht, ihc, iho]

theorem Comparison.holds?_isSome_iff (op : Comparison) (left right : Value) :
    (op.holds? left right).isSome ↔ (op = .member → ∃ items, right = .array items) := by
  cases op <;> cases right <;> simp [holds?]

end Verdict
