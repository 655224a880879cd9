import Verdict.Pattern.Basic

namespace Verdict

/-- Why a text is not a pattern. -/
inductive PatternError where
  | unclosedGroup
  | unopenedGroup
  | badGroupName
  | duplicateGroupName
  | badFlags
  | unsupported (what : String)
  | nothingToRepeat
  | badCount
  | unclosedClass
  | badClassItem
  | badRange
  | badEscape
  | unknownClass
  | beyondASCII
  | tooDeep
  | tooLarge
  deriving DecidableEq, Repr

/-- The largest depth to which groups, loops, alternatives, sequences and classes may nest. -/
def nestLimit : Nat := 250

namespace PatternError

/-- The cause in words. -/
def cause : PatternError → String
  | unclosedGroup => "unclosed group"
  | unopenedGroup => "unopened group"
  | badGroupName => "invalid capture group name"
  | duplicateGroupName => "duplicate capture group name"
  | badFlags => "invalid flags"
  | unsupported what => what ++ " is not supported"
  | nothingToRepeat => "repetition operator missing expression"
  | badCount => "invalid repetition count"
  | unclosedClass => "unclosed character class"
  | badClassItem => "invalid item in a character class"
  | badRange => "invalid character class range"
  | badEscape => "unrecognized escape sequence"
  | unknownClass => "unknown character class"
  | beyondASCII => "characters beyond ASCII are not allowed here"
  | tooDeep => "pattern nests too deeply"
  | tooLarge => "pattern is too large"

def message : PatternError → String
  | tooLarge => "Compiled regex exceeds size limit of " ++ toString Regex.weightLimit ++ " bytes."
  | e => "regex parse error: " ++ e.cause

end PatternError

/-- The flags that govern the reading of a pattern. -/
structure PatternFlags where
  ignoreCase : Bool := false
  multiLine : Bool := false
  dotAll : Bool := false
  swapGreed : Bool := false
  unicode : Bool := true
  returns : Bool := false
  /-- Blanks and comments between the parts of a pattern are skipped. -/
  verbose : Bool := false
  deriving DecidableEq, Repr

namespace PatternFlags

/-- Sets the flag of this letter, if there is one. -/
def set? (f : PatternFlags) (letter : Char) (value : Bool) : Option PatternFlags :=
  match letter with
  | 'i' => some { f with ignoreCase := value }
  | 'm' => some { f with multiLine := value }
  | 's' => some { f with dotAll := value }
  | 'U' => some { f with swapGreed := value }
  | 'u' => some { f with unicode := value }
  | 'R' => some { f with returns := value }
  | 'x' => some { f with verbose := value }
  | _ => none

/-- Reads flags up to a colon or a closing parenthesis. No flag may come twice, nor may the minus
sign that turns off the flags after it, and a flag has to follow it. -/
def read (f : PatternFlags) (negated : Bool) (seen : List Char) :
    List Char → Except PatternError (PatternFlags × List Char × List Char)
  | [] => .error .badFlags
  | c :: rest =>
    if c = ':' ∨ c = ')' then
      if seen.head? = some '-' then .error .badFlags else .ok (f, seen, c :: rest)
    else if seen.contains c then .error .badFlags
    else if c = '-' then f.read true (c :: seen) rest
    else match f.set? c !negated with
      | some f => f.read negated (c :: seen) rest
      | none => .error .badFlags

end PatternFlags

/-- Skips blanks and comments, which run from `#` to the end of the line. -/
def skipVerbose (inComment : Bool) : List Char → List Char
  | [] => []
  | c :: rest =>
    if inComment then skipVerbose (c != '\n') rest
    else if isBlank c then skipVerbose false rest
    else if c = '#' then skipVerbose true rest
    else c :: rest

namespace PatternFlags

/-- Skips what may stand between the parts of a pattern. -/
def skip (f : PatternFlags) (s : List Char) : List Char :=
  if f.verbose then skipVerbose false s else s

/-- The kind of characters that word assertions look at. -/
def wordKind (f : PatternFlags) : WordKind :=
  if f.unicode then .unicode else .ascii

/-- The set of a character, and of those that differ only in case where case is ignored. -/
def literal (f : PatternFlags) (c : Char) : CharSet :=
  if !f.ignoreCase then .char c
  else if f.unicode then .folded (.char c)
  else .asciiFolded (.char c)

/-- Adds what differs only in case to a set. -/
def fold (f : PatternFlags) (s : CharSet) : CharSet :=
  if !f.ignoreCase then s else if f.unicode then .folded s else .asciiFolded s

/-- The complement of a set, which has characters beyond ASCII. -/
def complement (f : PatternFlags) (s : CharSet) : Except PatternError CharSet :=
  if f.unicode then .ok s.compl else .error .beyondASCII

def negate (f : PatternFlags) (negated : Bool) (s : CharSet) : Except PatternError CharSet :=
  if negated then f.complement s else .ok s

/-- The set that a dot stands for. -/
def dot (f : PatternFlags) : Except PatternError CharSet :=
  if f.dotAll then f.complement .none
  else if f.returns then f.complement (.char '\n' ∪ .char '\r')
  else f.complement (.char '\n')

/-- The assertion that a caret stands for. -/
def caret (f : PatternFlags) : Look :=
  if !f.multiLine then .textStart else if f.returns then .returnLineStart else .lineStart

/-- The assertion that a dollar sign stands for. -/
def dollar (f : PatternFlags) : Look :=
  if !f.multiLine then .textEnd else if f.returns then .returnLineEnd else .lineEnd

end PatternFlags

end Verdict
