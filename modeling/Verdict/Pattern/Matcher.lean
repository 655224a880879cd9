import Verdict.Pattern.Basic

namespace Verdict

/-- A place in a text: the character before it, the text after it and the length of that text,
and the groups matched so far, each with the text left at its start and at its end. -/
structure Spot where
  before : Option Char
  rest : List Char
  left : Nat
  spans : List (Nat × Nat × Nat)
  deriving DecidableEq, Repr

namespace Spot

/-- The start of a text whose length is known. -/
def start (s : List Char) (length : Nat) : Spot := ⟨none, s, length, []⟩

/-- The start of a text. -/
def ofText (s : List Char) : Spot := start s s.length

/-- Keeps the match of a group from `s` to `t`. -/
def close (index : Nat) (s t : Spot) : Spot :=
  { t with spans := (index, s.left, t.left) :: t.spans.filter fun span => span.1 != index }

end Spot

/-- Whether a character counts for a word assertion. -/
def WordKind.contains : WordKind → Char → Bool
  | unicode, c => isWord c
  | ascii, c => c.isAlphanum || c == '_'

/-- Whether an assertion holds between a character and what follows. -/
def Look.holds (k : Look) (before after : Option Char) : Bool :=
  match k with
  | textStart => before.isNone
  | textEnd => after.isNone
  | lineStart => before.isNone || before == some '\n'
  | lineEnd => after.isNone || after == some '\n'
  | returnLineStart =>
    before.isNone || before == some '\n' || (before == some '\r' && after != some '\n')
  | returnLineEnd =>
    after.isNone || after == some '\r' || (after == some '\n' && before != some '\r')
  | wordBoundary kind => before.any kind.contains != after.any kind.contains
  | notWordBoundary kind => before.any kind.contains == after.any kind.contains
  | wordStart kind => !before.any kind.contains && after.any kind.contains
  | wordEnd kind => before.any kind.contains && !after.any kind.contains
  | wordStartHalf kind => !before.any kind.contains
  | wordEndHalf kind => !after.any kind.contains

/-- Keeps the first spot of each place. -/
def distinct (spots : List Spot) : List Spot :=
  match spots with
  | [] => []
  | [s] => [s]
  | spots =>
    let step : List Spot × Nat → Spot → List Spot × Nat := fun (kept, seen) s =>
      if seen.testBit s.left then (kept, seen) else (s :: kept, seen ||| 1 <<< s.left)
    (spots.foldl step ([], 0)).1.reverse

/-- The progress of a loop: the spots found so far, the last one first, and the passes that have
been begun, as a set of numbers. -/
structure Sweep where
  found : List Spot
  begun : Nat

namespace Sweep

def empty : Sweep := ⟨[], 0⟩

def report (w : Sweep) (s : Spot) : Sweep := { w with found := s :: w.found }

def reportAll (w : Sweep) (spots : List Spot) : Sweep := spots.foldl report w

def begin (w : Sweep) (n : Nat) : Sweep := { w with begun := w.begun ||| 1 <<< n }

/-- Everything found, each place once, in the order of preference. -/
def results (w : Sweep) : List Spot := distinct w.found.reverse

/-- Visits the ends that passes beginning at `s` can reach, and then reports `after`. A greedy loop
reports an end after those of the passes that go on from it, a lazy one before them. A pass that
has been begun before, as told by its number, is not begun again. The first argument bounds the
number of passes. -/
def visit (step : Spot → List Spot) (number : Nat → Spot → Nat) (greedy : Bool) :
    Nat → Spot → List Spot → Sweep → Sweep
  | 0, s, after, w => (w.report s).reportAll after
  | passes + 1, s, after, w =>
    let n := number passes s
    if w.begun.testBit n then w.reportAll after
    else
      let w := if greedy then w.begin n else (w.begin n).report s
      let after := if greedy then s :: after else after
      match step s with
      | [] => w.reportAll after
      | [t] => visit step number greedy passes t after w
      | ts =>
        (ts.foldl (fun w t => visit step number greedy passes t [] w) w).reportAll after

end Sweep

namespace Pattern

/-- The ends of a pass that go beyond its start. -/
def advancing (step : Spot → List Spot) (s : Spot) : List Spot :=
  (step s).filter fun t => t.left < s.left

/-- Visits the ends of any number of passes, each of which has to advance. -/
def visitMany (step : Spot → List Spot) (greedy : Bool) (s : Spot) (w : Sweep) : Sweep :=
  w.visit (advancing step) (fun _ t => t.left) greedy (s.left + 1) s []

/-- The ends of any number of passes. -/
def many (step : Spot → List Spot) (greedy : Bool) (s : Spot) : List Spot :=
  (visitMany step greedy s .empty).results

/-- The ends of one or more passes. A first pass that does not advance ends the loop. -/
def someOf (step : Spot → List Spot) (greedy : Bool) (s : Spot) : List Spot :=
  let visitFirst : Sweep → Spot → Sweep := fun w t =>
    if t.left < s.left then visitMany step greedy t w else w.report t
  ((step s).foldl visitFirst .empty).results

/-- The ends of at most `most` passes. -/
def atMost (step : Spot → List Spot) (greedy : Bool) (most : Nat) (s : Spot) : List Spot :=
  (Sweep.empty.visit step (fun passes t => passes * (s.left + 1) + t.left) greedy most s []).results

/-- Goes on from each of several spots. -/
def andThen (spots : List Spot) (step : Spot → List Spot) : List Spot :=
  match spots with
  | [] => []
  | [s] => step s
  | spots => distinct (spots.flatMap step)

/-- The ends of exactly `n` passes. -/
def exactly (step : Spot → List Spot) : Nat → List Spot → List Spot
  | 0, spots => spots
  | n + 1, spots => exactly step n (andThen spots step)

/-- The ends of a loop. Where a pass may match nothing, a loop of any number of passes is an
optional loop of one or more. -/
def loopEnds (step : Spot → List Spot) (nullable : Bool) (least : Nat) (most : Option Nat)
    (greedy : Bool) (s : Spot) : List Spot :=
  match least, most with
  | least, some most => andThen (exactly step least [s]) (atMost step greedy (most - least))
  | 0, none =>
    if nullable then
      if greedy then distinct (someOf step greedy s ++ [s])
      else distinct (s :: someOf step greedy s)
    else many step greedy s
  | least + 1, none => andThen (exactly step least [s]) (someOf step greedy)

/-- The places where a match that begins at a spot can end, the preferred one first and each place
once, with the groups of the preferred match that ends there. -/
def ends : Pattern → Spot → List Spot
  | empty, s => [s]
  | one set, s =>
    match s.rest with
    | [] => []
    | c :: rest =>
      if set.contains c then [{ s with before := some c, rest := rest, left := s.left - 1 }] else []
  | look k, s => if k.holds s.before s.rest.head? then [s] else []
  | seq p q, s => andThen (p.ends s) q.ends
  | alt p q, s => distinct (p.ends s ++ q.ends s)
  | loop least most greedy p, s => loopEnds p.ends p.nullable least most greedy s
  | group index p, s => (p.ends s).map (Spot.close index s)

end Pattern

end Verdict
