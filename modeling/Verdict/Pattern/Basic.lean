import Verdict.Text.CharSet

namespace Verdict

/-- Which characters a word assertion takes for word characters. -/
inductive WordKind where
  | unicode
  | ascii
  deriving DecidableEq, Repr

/-- An assertion about the place between two characters. -/
inductive Look where
  | textStart
  | textEnd
  | lineStart
  | lineEnd
  /-- As `lineStart`, where a carriage return and the pair with a line feed end a line too. -/
  | returnLineStart
  | returnLineEnd
  | wordBoundary (kind : WordKind)
  | notWordBoundary (kind : WordKind)
  | wordStart (kind : WordKind)
  | wordEnd (kind : WordKind)
  | wordStartHalf (kind : WordKind)
  | wordEndHalf (kind : WordKind)
  deriving DecidableEq, Repr

/-- A regular expression. Of several ways to match, the first one counts: the left side of an
alternative before the right one, and one more pass of a greedy loop before its end. -/
inductive Pattern where
  | empty
  | one (s : CharSet)
  | look (k : Look)
  | seq (p q : Pattern)
  | alt (p q : Pattern)
  /-- At least `least` passes, and at most `most` if there is such a bound. -/
  | loop (least : Nat) (most : Option Nat) (greedy : Bool) (p : Pattern)
  /-- A group whose match is kept under a number. -/
  | group (index : Nat) (p : Pattern)
  deriving DecidableEq, Repr

namespace Pattern

/-- One pattern after another. -/
def seqAll : List Pattern → Pattern
  | [] => empty
  | [p] => p
  | p :: rest => seq p (seqAll rest)

/-- The first pattern that matches. -/
def altAll : List Pattern → Pattern
  | [] => empty
  | [p] => p
  | p :: rest => alt p (altAll rest)

/-- Whether a pattern can match without reading a character. -/
def nullable : Pattern → Bool
  | empty => true
  | one _ => false
  | look _ => true
  | seq p q => p.nullable && q.nullable
  | alt p q => p.nullable || q.nullable
  | loop least _ _ p => least == 0 || p.nullable
  | group _ p => p.nullable

/-- Whether every match begins where the text begins. -/
def anchored : Pattern → Bool
  | look .textStart => true
  | seq p _ => p.anchored
  | alt p q => p.anchored && q.anchored
  | loop least _ _ p => least != 0 && p.anchored
  | group _ p => p.anchored
  | _ => false

/-- The numbers of the groups that can take part in a match. -/
def groups : Pattern → List Nat
  | seq p q => p.groups ++ q.groups
  | alt p q => p.groups ++ q.groups
  | loop _ most _ p => if most = some 0 then [] else p.groups
  | group index p => index :: p.groups
  | _ => []

end Pattern

/-- A rough measure of the memory that a compiled set takes, in bytes. -/
def CharSet.weight : CharSet → Nat
  | none => 0
  | char _ => 40
  | range _ high => if high.toNat < 128 then 40 else 400
  | runs s => 50 * s.edges.size
  | category _ => 20000
  | blank => 800
  | digit => 6000
  | word => 60000
  | union s t => s.weight + t.weight
  | inter s t => s.weight + t.weight
  | symmDiff s t => s.weight + t.weight
  | compl s => s.weight + 400
  | folded s => 2 * s.weight
  | asciiFolded s => 2 * s.weight

/-- A rough measure of the memory that a compiled pattern takes, in bytes: each pass that a counted
loop has to tell apart counts. -/
def Pattern.weight : Pattern → Nat
  | empty => 20
  | one s => s.weight
  | look _ => 40
  | seq p q => p.weight + q.weight
  | alt p q => p.weight + q.weight + 40
  | loop least most _ p => (most.getD (max least 1)) * (p.weight + 40)
  | group _ p => p.weight + 80

/-- A pattern ready for matching: the number of its groups, the whole match among them, and the
numbers of those that have names. -/
structure Regex where
  pattern : Pattern
  groupCount : Nat
  names : List (String × Nat)
  deriving DecidableEq, Repr

namespace Regex

/-- The largest weight of a pattern. -/
def weightLimit : Nat := 10485760

/-- Drops the names of groups that cannot take part in a match. -/
def ofPattern (pattern : Pattern) (names : List (String × Nat)) : Regex :=
  { pattern
    groupCount := pattern.groups.foldl (fun n index => max n (index + 1)) 1
    names := names.filter fun (_, index) => pattern.groups.contains index }

end Regex

end Verdict
