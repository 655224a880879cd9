import Verdict.Pattern.Escape

namespace Verdict

/-- A part of a class in brackets and the depth to which it nests. -/
structure ClassItem where
  set : CharSet
  depth : Nat
  deriving DecidableEq, Repr

/-- An operation on two parts of a class: `&&` (both), `--` (the first without the second) and `~~`
(one but not both). -/
inductive ClassOp where
  | both
  | without
  | either
  deriving DecidableEq, Repr

namespace ClassItem

/-- Parts side by side; `items` has the last one first. -/
def ofUnion (items : List ClassItem) : ClassItem :=
  match items with
  | [] => ⟨.none, 0⟩
  | [item] => item
  | items =>
    { set := .unionAll (items.reverse.map ClassItem.set)
      depth := (items.map ClassItem.depth).foldl max 0 + 1 }

/-- An operation applied to two parts, in which case is ignored if it is ignored at all. -/
def combine (f : PatternFlags) (op : ClassOp) (s t : ClassItem) : ClassItem :=
  let a := f.fold s.set
  let b := f.fold t.set
  { set := match op with
      | .both => a ∩ b
      | .without => a \ b
      | .either => .symmDiff a b
    depth := max s.depth t.depth + 1 }

/-- Applies the operation that is waiting for its right side. -/
def settle (f : PatternFlags) (pending : Option (ClassOp × ClassItem)) (item : ClassItem) :
    ClassItem :=
  match pending with
  | none => item
  | some (op, left) => combine f op left item

/-- Reads a named class of ASCII, such as `:alpha:` followed by a bracket, after a bracket. -/
def readNamed? : List Char → Option (Bool × CharSet × List Char)
  | ':' :: rest =>
    let (negated, body) := match rest with
      | '^' :: body => (true, body)
      | body => (false, body)
    match body.span (· != ':') with
    | (name, ':' :: ']' :: rest) =>
      (CharClass.bracketNames.lookup (String.ofList name)).map (negated, ·, rest)
    | _ => none
  | _ => none

/-- Takes leading hyphens, which stand for themselves. -/
def takeHyphens (f : PatternFlags) : Nat → List ClassItem → List Char → List ClassItem × List Char
  | 0, items, s => (items, s)
  | fuel + 1, items, s =>
    match s with
    | '-' :: rest => takeHyphens f fuel (⟨.char '-', 0⟩ :: items) (f.skip rest)
    | s => (items, s)

/-- Reads what may follow an opening bracket: a caret, which negates, then hyphens, or else a
closing bracket that stands for itself. -/
def readOpening (f : PatternFlags) (s : List Char) : Bool × List ClassItem × List Char :=
  let s := f.skip s
  let (negated, s) := match s with
    | '^' :: rest => (true, f.skip rest)
    | s => (false, s)
  match takeHyphens f s.length [] s with
  | ([], ']' :: rest) => (negated, [⟨.char ']', 0⟩], f.skip rest)
  | (items, s) => (negated, items, s)

/-- Reads one character or escape. -/
def readPrimitive (f : PatternFlags) : List Char → Except PatternError (Escape × List Char)
  | [] => .error .unclosedClass
  | '\\' :: rest => Escape.read f rest
  | c :: rest => .ok (.literal c false, rest)

/-- The character of an escape that stands at an end of a range. -/
def endOfRange (f : PatternFlags) : Escape → Except PatternError Char
  | .literal c _ => if f.unicode || c.toNat < 128 then .ok c else .error .beyondASCII
  | _ => .error .badRange

/-- What follows a hyphen, apart from blanks and the start of a comment where those are skipped. -/
def afterHyphen (f : PatternFlags) (s : List Char) : Option Char :=
  if !f.verbose then s.head?
  else match s.dropWhile isBlank with
    | '#' :: rest => (rest.dropWhile isBlank).head?
    | s => s.head?

/-- Reads a character, an escape or a range. A hyphen before a closing bracket or before another
hyphen makes no range. -/
def readRange (f : PatternFlags) (s : List Char) : Except PatternError (ClassItem × List Char) := do
  let (first, rest) ← readPrimitive f s
  let single : Except PatternError ClassItem := match first with
    | .literal _ _ => do return ⟨.char (← endOfRange f first), 0⟩
    | .set s => .ok ⟨s, 0⟩
    | .look _ => .error .badClassItem
  match f.skip rest with
  | [] => .error .unclosedClass
  | '-' :: body =>
    let next := afterHyphen f body
    if next = some ']' ∨ next = some '-' then return (← single, '-' :: body)
    else do
      let (last, rest) ← readPrimitive f (f.skip body)
      let low ← endOfRange f first
      let high ← endOfRange f last
      if low ≤ high then return (⟨.range low high, 0⟩, rest) else .error .badRange
  | rest => return (← single, rest)

/-- The part that a class in brackets is, from the parts between the brackets. -/
def close (f : PatternFlags) (negated : Bool) (item : ClassItem) :
    Except PatternError ClassItem := do
  let set ← f.negate negated (f.fold item.set)
  return ⟨set, item.depth + 1⟩

/-- Reads a class up to its closing bracket, with the parts read so far, the last one first. `fuel`
bounds the number of parts. -/
def readParts (f : PatternFlags) : Nat → Bool → Option (ClassOp × ClassItem) → List ClassItem →
    List Char → Except PatternError (ClassItem × List Char)
  | 0, _, _, _, _ => .error .unclosedClass
  | fuel + 1, negated, pending, items, s =>
    let operate (op : ClassOp) (rest : List Char) :=
      readParts f fuel negated (some (op, settle f pending (ofUnion items))) [] rest
    match f.skip s with
    | [] => .error .unclosedClass
    | '[' :: rest =>
      match readNamed? rest with
      | some (no, set, rest) => do
        let set ← f.negate no (f.fold set)
        readParts f fuel negated pending (⟨set, 0⟩ :: items) rest
      | none => do
        let (no, first, rest) := readOpening f rest
        let (item, rest) ← readParts f fuel no none first rest
        readParts f fuel negated pending (item :: items) rest
    | ']' :: rest => do
      let item ← close f negated (settle f pending (ofUnion items))
      return (item, rest)
    | '&' :: '&' :: rest => operate .both rest
    | '-' :: '-' :: rest => operate .without rest
    | '~' :: '~' :: rest => operate .either rest
    | s => do
      let (item, rest) ← readRange f s
      readParts f fuel negated pending (item :: items) rest

/-- Reads a class in brackets after its opening bracket. -/
def read (f : PatternFlags) (s : List Char) : Except PatternError (ClassItem × List Char) :=
  let (negated, items, rest) := readOpening f s
  readParts f (rest.length + 1) negated none items rest

end ClassItem

end Verdict
