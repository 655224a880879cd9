namespace Verdict

/-- Cuts `s` at the first occurrence of `mark`, with `before` the characters already passed, last
first. -/
def cutAfter (mark before : List Char) : List Char → Option (List Char × List Char)
  | [] => if mark.isEmpty then some (before.reverse, []) else none
  | c :: rest =>
    if mark.isPrefixOf (c :: rest) then some (before.reverse, (c :: rest).drop mark.length)
    else cutAfter mark (c :: before) rest

/-- What stands before and after the first occurrence of `mark`. -/
def cut? (mark s : List Char) : Option (List Char × List Char) :=
  cutAfter mark [] s

/-- The pieces of `s` between the occurrences of `mark`; `fuel` bounds their number less one. -/
def piecesUpTo (mark : List Char) : Nat → List Char → List (List Char)
  | 0, s => [s]
  | fuel + 1, s =>
    match cut? mark s with
    | none => [s]
    | some (before, rest) => before :: piecesUpTo mark fuel rest

/-- The pieces of `s` between the occurrences of a mark, which is not empty. -/
def pieces (mark s : List Char) : List (List Char) :=
  piecesUpTo mark s.length s

/-- Puts `new` in the place of the first occurrence of `old`. -/
def replaceFirst (old new s : List Char) : List Char :=
  match cut? old s with
  | none => s
  | some (before, rest) => before ++ new ++ rest

/-- The number of characters before the first occurrence of `needle`, counted from `skipped`. -/
def indexFrom (needle : List Char) (skipped : Nat) : List Char → Option Nat
  | [] => if needle.isEmpty then some skipped else none
  | c :: rest =>
    if needle.isPrefixOf (c :: rest) then some skipped else indexFrom needle (skipped + 1) rest

/-- The position of the first occurrence of `needle` at or after position `start`. -/
def indexOfFrom (needle s : List Char) (start : Nat) : Option Nat :=
  indexFrom needle start (s.drop start)

end Verdict
