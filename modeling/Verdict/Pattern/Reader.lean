import Verdict.Pattern.Bracket

namespace Verdict

/-- A part of a pattern, the depth to which it nests, and whether it can be repeated: flags set for
the rest of a group cannot. -/
structure PatternPart where
  pattern : Pattern
  depth : Nat := 0
  repeatable : Bool := true
  deriving DecidableEq, Repr

/-- A group that is open: its finished alternatives and the parts of the one being read, the last
one first, its number if it has one, and the flags outside it. -/
structure OpenGroup where
  alternatives : List PatternPart := []
  parts : List PatternPart := []
  index : Option Nat := none
  outer : PatternFlags
  deriving DecidableEq, Repr

namespace PatternPart

/-- Parts in a row, the last one first. -/
def ofSequence (parts : List PatternPart) : PatternPart :=
  match parts with
  | [] => { pattern := .empty }
  | [part] => part
  | parts =>
    { pattern := .seqAll (parts.reverse.map PatternPart.pattern)
      depth := (parts.map PatternPart.depth).foldl max 0 + 1 }

/-- Alternatives, the last one first. -/
def ofAlternatives (parts : List PatternPart) : PatternPart :=
  match parts with
  | [] => { pattern := .empty }
  | [part] => part
  | parts =>
    { pattern := .altAll (parts.reverse.map PatternPart.pattern)
      depth := (parts.map PatternPart.depth).foldl max 0 + 1 }

end PatternPart

namespace OpenGroup

/-- Adds a part to the alternative being read. -/
def push (g : OpenGroup) (part : PatternPart) : OpenGroup :=
  { g with parts := part :: g.parts }

/-- Begins the next alternative. -/
def bar (g : OpenGroup) : OpenGroup :=
  { g with alternatives := .ofSequence g.parts :: g.alternatives, parts := [] }

/-- What stands between the parentheses. -/
def body (g : OpenGroup) : PatternPart :=
  .ofAlternatives (.ofSequence g.parts :: g.alternatives)

/-- The group as a part of the one around it. -/
def toPart (g : OpenGroup) : PatternPart :=
  let inner := g.body
  { pattern := match g.index with
      | some index => .group index inner.pattern
      | none => inner.pattern
    depth := inner.depth + 1 }

end OpenGroup

/-- What has been read of a pattern: the innermost group, the groups around it, the flags in force,
the number of the next group and the names given so far. -/
structure PatternReader where
  inner : OpenGroup
  around : List OpenGroup
  flags : PatternFlags
  nextIndex : Nat
  names : List (String × Nat)
  deriving DecidableEq, Repr

namespace PatternReader

/-- Adds a part. -/
def push (r : PatternReader) (part : PatternPart) : PatternReader :=
  { r with inner := r.inner.push part }

def openGroup (r : PatternReader) (index : Option Nat) (flags : PatternFlags) : PatternReader :=
  { r with
    inner := { index, outer := r.flags }
    around := r.inner :: r.around
    flags
    nextIndex := if index.isSome then r.nextIndex + 1 else r.nextIndex }

def closeGroup (r : PatternReader) : Except PatternError PatternReader :=
  match r.around with
  | [] => .error .unopenedGroup
  | parent :: around =>
    .ok { r with inner := parent.push r.inner.toPart, around, flags := r.inner.outer }

/-- Repeats the last part. -/
def repeatLast (r : PatternReader) (least : Nat) (most : Option Nat) (greedy : Bool) :
    Except PatternError PatternReader :=
  match r.inner.parts with
  | [] => .error .nothingToRepeat
  | part :: parts =>
    if !part.repeatable then .error .nothingToRepeat
    else
      let loop : PatternPart :=
        { pattern := .loop least most (greedy != r.flags.swapGreed) part.pattern
          depth := part.depth + 1 }
      .ok { r with inner := { r.inner with parts := loop :: parts } }

/-- Takes the question mark that makes a loop lazy. -/
def takeLazy : List Char → Bool × List Char
  | '?' :: rest => (false, rest)
  | s => (true, s)

/-- Takes the digits of a count, between which blanks are skipped as elsewhere. -/
def takeDigits (f : PatternFlags) : Nat → Nat → Bool → List Char → Option Nat × List Char
  | 0, n, found, s => (if found then some n else none, s)
  | fuel + 1, n, found, s =>
    match s with
    | c :: rest =>
      if c.isDigit then takeDigits f fuel (n * 10 + digitValue c) true (f.skip rest)
      else (if found then some n else none, s)
    | [] => (if found then some n else none, [])

/-- Reads a count with blanks around it; it has to fit into 32 bits. -/
def readCount (f : PatternFlags) (s : List Char) : Except PatternError (Option Nat × List Char) :=
  let s := s.dropWhile isBlank
  match takeDigits f s.length 0 false s with
  | (some n, rest) =>
    if n < twoPow 32 then .ok (some n, f.skip (rest.dropWhile isBlank)) else .error .badCount
  | (none, rest) => .ok (none, f.skip (rest.dropWhile isBlank))

/-- Reads the bounds of a loop after the opening brace: one count, or a least and a greatest one of
which the latter may be missing. -/
def readBounds (f : PatternFlags) (s : List Char) :
    Except PatternError (Nat × Option Nat × List Char) := do
  match ← readCount f (f.skip s) with
  | (some least, ',' :: rest) =>
    match f.skip rest with
    | '\x7d' :: rest => return (least, none, rest)
    | rest =>
      match ← readCount f rest with
      | (some most, '\x7d' :: rest) =>
        if least ≤ most then return (least, some most, rest) else .error .badCount
      | _ => .error .badCount
  | (some count, '\x7d' :: rest) => return (count, some count, rest)
  | _ => .error .badCount

def isNameChar (first : Bool) (c : Char) : Bool :=
  c == '_' || (if first then isAlphabetic c
    else isAlphanumeric c || c == '.' || c == '[' || c == ']')

/-- Reads the name of a group up to the angle bracket. -/
def readName (s : List Char) : Except PatternError (String × List Char) :=
  match s.span (· != '>') with
  | (c :: name, _ :: rest) =>
    if isNameChar true c && name.all (isNameChar false) then
      .ok (String.ofList (c :: name), rest)
    else .error .badGroupName
  | _ => .error .badGroupName

/-- Opens a group with a name, which no other group has. -/
def openNamed (r : PatternReader) (s : List Char) :
    Except PatternError (PatternReader × List Char) := do
  let (name, rest) ← readName s
  if r.names.any fun entry => entry.1 == name then .error .duplicateGroupName
  else
    let r := { r with names := (name, r.nextIndex) :: r.names }
    return (r.openGroup (some r.nextIndex) r.flags, rest)

/-- Reads flags after a question mark: for the rest of the group, or for a group of their own. -/
def readFlags (r : PatternReader) (s : List Char) :
    Except PatternError (PatternReader × List Char) := do
  match ← r.flags.read false [] s with
  | (_, [], ')' :: _) => .error .nothingToRepeat
  | (flags, _, ')' :: rest) =>
    return ({ r with flags }.push { pattern := .empty, repeatable := false }, rest)
  | (flags, _, _ :: rest) => return (r.openGroup none flags, rest)
  | (_, _, []) => .error .badFlags

/-- Reads what follows an opening parenthesis. -/
def readOpening (r : PatternReader) (s : List Char) :
    Except PatternError (PatternReader × List Char) :=
  match r.flags.skip s with
  | '?' :: '=' :: _ | '?' :: '!' :: _ | '?' :: '<' :: '=' :: _ | '?' :: '<' :: '!' :: _ =>
    .error (.unsupported "look-around")
  | '?' :: 'P' :: '<' :: rest => r.openNamed rest
  | '?' :: '<' :: rest => r.openNamed rest
  | '?' :: rest => if rest.isEmpty then .error .unclosedGroup else r.readFlags rest
  | rest => .ok (r.openGroup (some r.nextIndex) r.flags, rest)

/-- The part that an escape is by itself. -/
def partOfEscape (f : PatternFlags) : Escape → Except PatternError PatternPart
  | .literal c byte =>
    if byte && !f.unicode && 128 ≤ c.toNat then .error .beyondASCII
    else .ok { pattern := .one (f.literal c) }
  | .set s => .ok { pattern := .one s }
  | .look k => .ok { pattern := .look k }

/-- Reads the next part or sign of a pattern. -/
def step (r : PatternReader) (c : Char) (rest : List Char) :
    Except PatternError (PatternReader × List Char) := do
  let looped (least : Nat) (most : Option Nat) : Except PatternError (PatternReader × List Char) :=
    let (greedy, rest) := takeLazy rest
    (r.repeatLast least most greedy).map (·, rest)
  match c with
  | '(' => r.readOpening rest
  | ')' => return (← r.closeGroup, rest)
  | '|' => return ({ r with inner := r.inner.bar }, rest)
  | '[' =>
    let (item, rest) ← ClassItem.read r.flags rest
    return (r.push { pattern := .one item.set, depth := item.depth }, rest)
  | '?' => looped 0 (some 1)
  | '*' => looped 0 none
  | '+' => looped 1 none
  | '\x7b' =>
    let (least, most, rest) ← readBounds r.flags rest
    let (greedy, rest) := takeLazy (r.flags.skip rest)
    return (← r.repeatLast least most greedy, rest)
  | '\\' =>
    let (escape, rest) ← Escape.read r.flags rest
    return (r.push (← partOfEscape r.flags escape), rest)
  | '.' => return (r.push { pattern := .one (← r.flags.dot) }, rest)
  | '^' => return (r.push { pattern := .look r.flags.caret }, rest)
  | '$' => return (r.push { pattern := .look r.flags.dollar }, rest)
  | c => return (r.push { pattern := .one (r.flags.literal c) }, rest)

def finish (r : PatternReader) : Except PatternError Regex :=
  if !r.around.isEmpty then .error .unclosedGroup
  else
    let body := r.inner.body
    if nestLimit < body.depth then .error .tooDeep
    else if Regex.weightLimit < body.pattern.weight then .error .tooLarge
    else .ok (.ofPattern body.pattern r.names)

/-- Reads the rest of a pattern; `fuel` bounds the number of its parts. -/
def run : Nat → PatternReader → List Char → Except PatternError Regex
  | 0, _, _ => .error .unclosedGroup
  | fuel + 1, r, s =>
    match r.flags.skip s with
    | [] => r.finish
    | c :: rest => do
      let (r, rest) ← r.step c rest
      run fuel r rest

end PatternReader

namespace Regex

/-- Reads a regular expression. -/
def read (flags : PatternFlags) (s : List Char) : Except PatternError Regex :=
  PatternReader.run (s.length + 1)
    { inner := { outer := flags }, around := [], flags, nextIndex := 1, names := [] } s

end Regex

end Verdict
