import Verdict.Number.Double.Reader
import Verdict.Token.Kind

namespace Verdict.Literal

/-- The integer of 64 bits that a text is, with an optional sign. -/
def readInteger? (s : List Char) : Option Int64 :=
  let (negative, ds) := takeSign s
  if ds.isEmpty || !ds.all Char.isDigit then none
  else
    let n : Int := readDigits 0 ds
    int64? (if negative then -n else n)

/-- The code point of hexadecimal digits, of which there is at least one; a plus sign may precede
them. -/
def readCode? (hex : List Char) : Option Nat :=
  let ds := dropPlus hex
  if ds.isEmpty then none else readHex? ds

/-- The character that an escape of up to four hexadecimal digits stands for. -/
def escapedChar? (hex : List Char) : Option Char :=
  (readCode? hex).bind fun n => if n.isValidChar then some (Char.ofNat n) else none

/-- What a backslash before a character stands for. -/
def unescape (c : Char) : Char :=
  match c with
  | 'n' => '\n'
  | 't' => '\t'
  | 'r' => '\r'
  | '0' => '\x00'
  | c => c

/-- Resolves the escapes of a string. The escape of a code point that is none loses its backslash
alone; a backslash at the end stands for itself. `skip` counts the characters that belong to what
has been read. -/
def unescapeFrom : Nat → List Char → List Char
  | _, [] => []
  | skip + 1, _ :: rest => unescapeFrom skip rest
  | 0, '\\' :: rest =>
    match rest with
    | [] => ['\\']
    | 'u' :: body =>
      let hex := body.take 4
      match escapedChar? hex with
      | some c => c :: unescapeFrom (hex.length + 1) rest
      | none => 'u' :: hex ++ unescapeFrom (hex.length + 1) rest
    | c :: _ => unescape c :: unescapeFrom 1 rest
  | 0, c :: rest => c :: unescapeFrom 0 rest

/-- The text between two characters `quote`. -/
def between? (quote : Char) (s : List Char) : Option (List Char) :=
  match s with
  | c :: rest =>
    if c = quote ∧ rest.getLast? = some quote then some rest.dropLast else none
  | [] => none

/-- The text of a string literal. -/
def unquote (s : List Char) : List Char :=
  unescapeFrom 0 ((between? '"' s <|> between? '\'' s).getD s)

/-- The value of a token of this kind. A text that is no number, or no regular expression, for all
that its kind says, is a string. -/
def value? (kind : TokenKind) (raw : String) : Option Value :=
  match kind with
  | .integer => some (match readInteger? raw.toList with
    | some n => .integer n
    | none => floatOrString)
  | .float => some floatOrString
  | .string => some (.string (String.ofList (unquote raw.toList)))
  | .boolean => some (.boolean (raw == "true"))
  | .null => some .null
  | .undefined => some .undefined
  | .regex => some (match RegexLiteral.ofText? raw.toList with
    | some re => .regex re
    | none => .string raw)
  | _ => none
where
  floatOrString : Value := match Double.ofText? raw.toList with
    | some x => .float x
    | none => .string raw

end Verdict.Literal
