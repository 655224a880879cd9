import Verdict.Pattern.Flags
import Verdict.Text.CharClass

namespace Verdict

/-- What a backslash and the characters after it stand for. -/
inductive Escape where
  /-- A character; a byte is one written with two hexadecimal digits. -/
  | literal (c : Char) (byte : Bool)
  | set (s : CharSet)
  | look (k : Look)
  deriving DecidableEq, Repr

namespace Escape

/-- The character with this code point, unless it is none. -/
def charOfCode? (n : Nat) : Option Char :=
  if n.isValidChar then some (Char.ofNat n) else none

def readHexDigits (f : PatternFlags) : Nat → Nat → List Char → Except PatternError (Nat × List Char)
  | 0, n, s => .ok (n, s)
  | count + 1, n, s =>
    match s with
    | [] => .error .badEscape
    | c :: rest =>
      match digit? 16 c with
      | some d => readHexDigits f count (n * 16 + d) (f.skip rest)
      | none => .error .badEscape

/-- Reads hexadecimal digits up to a closing brace; `fuel` bounds their number. -/
def readHexBraced (f : PatternFlags) :
    Nat → Nat → Bool → List Char → Except PatternError (Nat × List Char)
  | 0, _, _, _ => .error .badEscape
  | fuel + 1, n, found, s =>
    match s with
    | [] => .error .badEscape
    | c :: rest =>
      if c = '\x7d' then if found then .ok (n, f.skip rest) else .error .badEscape
      else match digit? 16 c with
        | some d => readHexBraced f fuel (n * 16 + d) true (f.skip rest)
        | none => .error .badEscape

/-- Reads the code point after `x`, `u` or `U`: that many digits, or any number in braces. -/
def readHex (f : PatternFlags) (count : Nat) (s : List Char) :
    Except PatternError (Escape × List Char) := do
  let s := f.skip s
  let braced := s.head? = some '\x7b'
  let (n, rest) ←
    if braced then readHexBraced f s.length 0 false (f.skip s.tail)
    else readHexDigits f count 0 s
  match charOfCode? n with
  | some c => .ok (literal c (!braced && count == 2), rest)
  | none => .error .badEscape

/-- Splits a text at the first occurrence of a character. -/
def splitAtChar? (c : Char) (s : List Char) : Option (List Char × List Char) :=
  match s.span (· != c) with
  | (before, _ :: after) => some (before, after)
  | (_, []) => none

/-- Splits a class name at `!=`. -/
def splitAtUnequal? : List Char → Option (List Char × List Char)
  | [] => none
  | '!' :: '=' :: rest => some ([], rest)
  | c :: rest => (splitAtUnequal? rest).map fun (before, after) => (c :: before, after)

/-- The class of a name between braces: a name by itself, or a property with its value. The flag
says whether the class is negated. -/
def classOfName? (name : List Char) : Option (CharSet × Bool) :=
  let valued (property value : List Char) : Option CharSet :=
    CharClass.valued? (CharClass.looseName property) (CharClass.looseName value)
  match splitAtUnequal? name with
  | some (property, value) => (valued property value).map (·, true)
  | none =>
    match splitAtChar? ':' name <|> splitAtChar? '=' name with
    | some (property, value) => (valued property value).map (·, false)
    | none => (CharClass.named? (CharClass.looseName name)).map (·, false)

/-- Takes the characters up to a closing brace; `fuel` bounds their number. -/
def readBraced (f : PatternFlags) : Nat → List Char → List Char → Option (List Char × List Char)
  | 0, _, _ => none
  | fuel + 1, name, s =>
    match f.skip s with
    | [] => none
    | c :: rest =>
      if c = '\x7d' then some (name.reverse, rest) else readBraced f fuel (c :: name) rest

/-- Reads the name of a class after `p` or `P`. -/
def readClass (f : PatternFlags) (negated : Bool) (s : List Char) :
    Except PatternError (Escape × List Char) := do
  let (name, rest) ← match f.skip s with
    | [] => .error .badEscape
    | '\x7b' :: rest =>
      match readBraced f (rest.length + 1) [] rest with
      | some found => .ok found
      | none => .error .badEscape
    | '\\' :: _ => .error .unknownClass
    | c :: rest => .ok ([c], f.skip rest)
  if !f.unicode then .error .beyondASCII
  else match classOfName? name with
    | some (s, flip) => do
      let s ← f.negate (negated != flip) (f.fold s)
      .ok (set s, rest)
    | none => .error .unknownClass

/-- The class of a letter such as `d`, whose capital stands for the complement. -/
def letterClass (f : PatternFlags) (negated : Bool) (s ascii : CharSet) (rest : List Char) :
    Except PatternError (Escape × List Char) := do
  let s ← f.negate negated (if f.unicode then s else ascii)
  .ok (set s, rest)

/-- The characters of the name of a word assertion. -/
def isBoundaryChar (c : Char) : Bool :=
  c.isAlpha || c == '-'

/-- Takes the name of a word assertion; `fuel` bounds its length. -/
def takeBoundaryName (f : PatternFlags) : Nat → List Char → List Char → List Char × List Char
  | 0, name, s => (name.reverse, s)
  | fuel + 1, name, s =>
    match s with
    | c :: rest =>
      if isBoundaryChar c then takeBoundaryName f fuel (c :: name) (f.skip rest)
      else (name.reverse, s)
    | [] => (name.reverse, [])

/-- Reads a word boundary, of which braces may say more. Braces that begin with no letter count
repetitions instead. -/
def readBoundary (f : PatternFlags) (s : List Char) : Except PatternError (Escape × List Char) :=
  match s with
  | '\x7b' :: rest =>
    match f.skip rest with
    | [] => .error .badCount
    | c :: inner =>
      if !isBoundaryChar c then .ok (look (.wordBoundary f.wordKind), s)
      else match takeBoundaryName f (inner.length + 1) [] (c :: inner) with
        | (name, '\x7d' :: rest) =>
          match String.ofList name with
          | "start" => .ok (look (.wordStart f.wordKind), rest)
          | "end" => .ok (look (.wordEnd f.wordKind), rest)
          | "start-half" => .ok (look (.wordStartHalf f.wordKind), rest)
          | "end-half" => .ok (look (.wordEndHalf f.wordKind), rest)
          | _ => .error .badEscape
        | _ => .error .badEscape
  | s => .ok (look (.wordBoundary f.wordKind), s)

/-- Reads what follows a backslash. -/
def read (f : PatternFlags) : List Char → Except PatternError (Escape × List Char)
  | [] => .error .badEscape
  | c :: rest =>
    if c.isDigit then .error (.unsupported "backreference")
    else match c with
      | 'x' => readHex f 2 rest
      | 'u' => readHex f 4 rest
      | 'U' => readHex f 8 rest
      | 'p' => readClass f false rest
      | 'P' => readClass f true rest
      | 'd' => letterClass f false .digit CharClass.asciiDigit rest
      | 'D' => letterClass f true .digit CharClass.asciiDigit rest
      | 's' => letterClass f false .blank CharClass.asciiBlank rest
      | 'S' => letterClass f true .blank CharClass.asciiBlank rest
      | 'w' => letterClass f false .word CharClass.asciiWord rest
      | 'W' => letterClass f true .word CharClass.asciiWord rest
      | 'a' => .ok (literal '\x07' false, rest)
      | 'f' => .ok (literal '\x0c' false, rest)
      | 't' => .ok (literal '\t' false, rest)
      | 'n' => .ok (literal '\n' false, rest)
      | 'r' => .ok (literal '\r' false, rest)
      | 'v' => .ok (literal '\x0b' false, rest)
      | 'A' => .ok (look .textStart, rest)
      | 'z' => .ok (look .textEnd, rest)
      | 'b' => readBoundary f rest
      | 'B' => .ok (look (.notWordBoundary f.wordKind), rest)
      | '<' => .ok (look (.wordStart f.wordKind), rest)
      | '>' => .ok (look (.wordEnd f.wordKind), rest)
      | c =>
        if c.toNat < 128 && !c.isAlphanum then .ok (literal c false, rest) else .error .badEscape

end Escape

end Verdict
