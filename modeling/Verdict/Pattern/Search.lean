import Verdict.Pattern.Matcher

namespace Verdict

/-- A match, with the text that separates it from the match before. -/
structure Segment where
  gap : List Char
  matched : List Char
  groups : List (Nat × List Char)
  deriving DecidableEq, Repr

namespace Pattern

/-- The first match that begins at or after a place: where it begins and where it ends. -/
def findFrom (p : Pattern) (spot : Spot) : List Char → Option (Spot × Spot)
  | [] => (p.ends spot).head?.map (spot, ·)
  | c :: rest =>
    match (p.ends spot).head? with
    | some stop => some (spot, stop)
    | none =>
      if p.anchored then none
      else findFrom p { spot with before := some c, rest := rest, left := spot.left - 1 } rest

/-- The first match at or after a spot. -/
def find? (p : Pattern) (spot : Spot) : Option (Spot × Spot) :=
  p.findFrom spot spot.rest

/-- The first match at or after a spot at which the last match has ended. A match of nothing at
that very place does not count. -/
def findAfter? (p : Pattern) (spot : Spot) : Option (Spot × Spot) :=
  match p.find? spot with
  | none => none
  | some (start, stop) =>
    if start.left = stop.left ∧ stop.left = spot.left then
      match spot.rest with
      | [] => none
      | c :: rest => p.find? { spot with before := some c, rest := rest, left := spot.left - 1 }
    else some (start, stop)

end Pattern

namespace Segment

/-- The segment from the end of the last match to the end of the next. -/
def between (last start stop : Spot) : Segment where
  gap := last.rest.take (last.left - start.left)
  matched := start.rest.take (start.left - stop.left)
  groups := stop.spans.map fun (index, opened, closed) =>
    (index, (start.rest.drop (start.left - opened)).take (opened - closed))

end Segment

namespace Regex

/-- A spot with no groups matched. -/
def fresh (s : Spot) : Spot := { s with spans := [] }

/-- Goes on cutting a text from the end of a match; `fuel` bounds the number of matches. -/
def segmentsFrom (re : Regex) : Nat → Spot → List Segment → List Segment × List Char
  | 0, last, done => (done.reverse, last.rest)
  | fuel + 1, last, done =>
    match re.pattern.findAfter? last with
    | none => (done.reverse, last.rest)
    | some (start, stop) =>
      segmentsFrom re fuel (fresh stop) (Segment.between last start stop :: done)

/-- The segments of a text, up to `limit` of them, and the text after the last match. -/
def segmentsUpTo (re : Regex) (limit : Nat) (s : List Char) : List Segment × List Char :=
  let spot := Spot.ofText s
  match limit, re.pattern.find? spot with
  | 0, _ => ([], s)
  | _, none => ([], s)
  | limit + 1, some (start, stop) =>
    re.segmentsFrom limit (fresh stop) [Segment.between spot start stop]

/-- All segments of a text, and the text after the last match. A match ends later than the one
before it, so there is at most one more match than there are characters. -/
def segments (re : Regex) (s : List Char) : List Segment × List Char :=
  re.segmentsUpTo (s.length + 1) s

/-- Whether a pattern matches somewhere in a text. -/
def isMatch (re : Regex) (s : List Char) : Bool :=
  (re.pattern.find? (Spot.ofText s)).isSome

/-- The length in characters of the match that `s` begins with, or of the text up to the end of the
first match where the pattern is not bound to the beginning. `length` is the length of `s`. -/
def matchEnd? (re : Regex) (s : List Char) (length : Nat) : Option Nat :=
  (re.pattern.find? (Spot.start s length)).map fun (_, stop) => length - stop.left

/-- The pieces of a text between the matches. -/
def split (re : Regex) (s : List Char) : List (List Char) :=
  let (segments, rest) := re.segments s
  segments.map Segment.gap ++ [rest]

/-- Replaces matches: all of them, or the first only. -/
def replace (re : Regex) (all : Bool) (substitute : Segment → List Char) (s : List Char) :
    List Char :=
  let (segments, rest) := if all then re.segments s else re.segmentsUpTo 1 s
  segments.flatMap (fun segment => segment.gap ++ substitute segment) ++ rest

end Regex

end Verdict
