import Verdict.Value.Compare

namespace Verdict

inductive Comparison where
  | equal
  | equalStrict
  | notEqual
  | notEqualStrict
  | less
  | lessEqual
  | greater
  | greaterEqual
  | member
  deriving DecidableEq, Repr

namespace Comparison

/-- Whether an array holds a value, by strict equality. -/
def contains (items : List Value) (v : Value) : Bool :=
  items.any fun item => item.strictEq v

/-- Whether a comparison holds. Only membership can fail to have an answer, when the right side is
no array. -/
def holds? (op : Comparison) (left right : Value) : Option Bool :=
  match op with
  | equal => some (left.looseEq right)
  | equalStrict => some (left.strictEq right)
  | notEqual => some !(left.looseEq right)
  | notEqualStrict => some !(left.strictEq right)
  | less => some (left.looseCompare right == some .lt)
  | lessEqual => some ((left.looseCompare right).any Ordering.isLE)
  | greater => some (left.looseCompare right == some .gt)
  | greaterEqual => some ((left.looseCompare right).any Ordering.isGE)
  | member =>
    match right with
    | .array items => some (contains items left)
    | _ => none

end Comparison

/-- A connective of two verdicts. Neither binds more tightly than the other. -/
inductive Connective where
  | and
  | or
  deriving DecidableEq, Repr

namespace Connective

/-- The character that stands for a connective in the algebra of a rule. -/
def symbol : Connective → Char
  | and => '&'
  | or => '|'

def apply : Connective → Bool → Bool → Bool
  | and, a, b => a && b
  | or, a, b => a || b

end Connective

end Verdict
