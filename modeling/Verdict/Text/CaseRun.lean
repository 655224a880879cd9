import Verdict.Text.Runs

namespace Verdict

/-- Every `step`-th character from `first`, `count` of them, goes to the character as far from
`target` as it is from `first`. -/
structure CaseRun where
  first : Nat
  count : Nat
  step : Nat
  target : Nat
  deriving DecidableEq, Repr

namespace CaseRun

/-- Where a run sends a code point. -/
def image? (r : CaseRun) (n : Nat) : Option Nat :=
  let d := n - r.first
  if r.first ≤ n ∧ d % r.step = 0 ∧ d / r.step < r.count then some (r.target + d) else none

/-- The code point that a run sends to `n`. -/
def source? (r : CaseRun) (n : Nat) : Option Nat :=
  let d := n - r.target
  if r.target ≤ n ∧ d % r.step = 0 ∧ d / r.step < r.count then some (r.first + d) else none

/-- Reads a coded table of runs, four numbers each. -/
def ofCoded (lines : List String) : List CaseRun :=
  group (codedNumbers lines).toList
where
  group : List Nat → List CaseRun
    | first :: count :: step :: target :: rest => ⟨first, count, step, target⟩ :: group rest
    | _ => []

end CaseRun

end Verdict
