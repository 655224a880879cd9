import Verdict.Number.Digits

namespace Verdict

/-- Adds the numbers of a line to those of a coded table: base 36, separated by blanks. -/
def readCodedLine (numbers : Array Nat) (line : String) : Array Nat :=
  let step : Option Nat × Array Nat → Char → Option Nat × Array Nat := fun (current, done) c =>
    match digit? 36 c with
    | some d => (some (current.getD 0 * 36 + d), done)
    | none => (none, (current.map done.push).getD done)
  let (current, done) := line.foldl step (none, numbers)
  (current.map done.push).getD done

/-- The numbers of a coded table, line by line. -/
def codedNumbers (lines : List String) : Array Nat :=
  lines.foldl readCodedLine #[]

/-- The number of entries of a sorted array that are at most `n`, by bisection. -/
def rank (edges : Array Nat) (n : Nat) : Nat :=
  go 0 edges.size
where
  go (lo hi : Nat) : Nat :=
    if lo < hi then
      let mid := (lo + hi) / 2
      if edges[mid]?.getD 0 ≤ n then go (mid + 1) hi else go lo mid
    else lo
  termination_by hi - lo

/-- A set of characters given by the code points where membership changes: the first opens a run,
the second closes it, and so on. -/
structure RunSet where
  edges : Array Nat
  deriving DecidableEq, Repr

namespace RunSet

/-- Reads a coded table, which lists the distance from each edge to the next. -/
def ofSteps (lines : List String) : RunSet :=
  let push : Nat × Array Nat → Nat → Nat × Array Nat := fun (last, edges) step =>
    (last + step, edges.push (last + step))
  ⟨((codedNumbers lines).foldl push (0, #[])).2⟩

/-- A character is in the set when an odd number of edges lies at or before it. -/
def contains (s : RunSet) (c : Char) : Bool :=
  rank s.edges c.toNat % 2 == 1

end RunSet

end Verdict
