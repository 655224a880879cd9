import Verdict.Fault
import Verdict.Formula.Basic

namespace Verdict.Algebra

/-- The reading of a text without parentheses: the verdict so far, and whether the next digit has to
hold as well. -/
structure Reading where
  holds : Bool
  both : Bool

/-- Takes in one more digit. -/
def Reading.take (r : Reading) (bit : Bool) : Reading :=
  { r with holds := if r.both then r.holds && bit else r.holds || bit }

/-- Reads one more character of a text without parentheses. -/
def Reading.step (r : Reading) (c : Char) : Except RuleError Reading :=
  match c with
  | '&' => .ok { r with both := true }
  | '|' => .ok { r with both := false }
  | '0' => .ok (r.take false)
  | '1' => .ok (r.take true)
  | c => .error (.badAlgebra c)

/-- The verdict of a text without parentheses, none for an empty one. The first character counts as
a one or as something else. -/
def flatVerdict? (s : List Char) : Except RuleError (Option Bool) :=
  match s with
  | [] => .ok none
  | c :: rest => (rest.foldlM Reading.step ⟨c == '1', false⟩).map fun r => some r.holds

/-- A pass over a text: what it has become so far, the last character first; the characters after a
parenthesis that may turn out to open an innermost group; and whether a group has been replaced. -/
structure Pass where
  done : List Char
  inner : Option (List Char)
  changed : Bool

namespace Pass

def start : Pass := ⟨[], none, false⟩

/-- Gives up the group that seemed to be open. -/
def flush (p : Pass) : List Char :=
  match p.inner with
  | none => p.done
  | some s => s ++ '(' :: p.done

/-- Reads one more character. -/
def step (p : Pass) (c : Char) : Except RuleError Pass :=
  match c, p.inner with
  | '(', _ => .ok { p with done := p.flush, inner := some [] }
  | ')', none => .ok { p with done := ')' :: p.done }
  | ')', some [] => .ok { p with done := ')' :: p.flush, inner := none }
  | ')', some s =>
    (flatVerdict? s.reverse).map fun holds =>
      ⟨Formula.digit (holds.getD false) :: p.done, none, true⟩
  | c, some s => .ok { p with inner := some (c :: s) }
  | c, none => .ok { p with done := c :: p.done }

end Pass

/-- Replaces the innermost groups of a text; the flag says whether there was one. The error is that
of the first group that has no verdict. -/
def reduceGroups (s : List Char) : Except RuleError (List Char × Bool) :=
  (s.foldlM Pass.step .start).map fun p => (p.flush.reverse, p.changed)

/-- Replaces groups until none is left; `fuel` bounds the number of passes. -/
def reduceAll : Nat → List Char → Except RuleError (List Char)
  | 0, s => .ok s
  | fuel + 1, s => do
    match ← reduceGroups s with
    | (_, false) => return s
    | (s, true) => reduceAll fuel s

/-- The verdict of an algebra: groups are replaced until none is left, then the text that remains is
read from left to right. An empty one does not hold. Each pass that replaces a group makes the text
shorter. -/
def verdict (s : List Char) : Except RuleError Bool := do
  let flat ← reduceAll s.length s
  return (← flatVerdict? flat).getD false

end Verdict.Algebra
