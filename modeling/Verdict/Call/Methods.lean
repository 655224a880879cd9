import Verdict.Call.Registry
import Verdict.Pattern.Literal
import Verdict.Text.CaseMap
import Verdict.Text.Substring
import Verdict.Value.Compare

namespace Verdict.Method

/-- The error of a receiver that has no method of this name. -/
def notAFunction (receiver : Option Value) (method : String) : CallError :=
  .notAFunction ((receiver.map Value.display).getD "undefined") method

/-- The text of a receiver that has to be a string. -/
def stringReceiver (receiver : Option Value) (method : String) : Except CallError (List Char) :=
  match receiver with
  | some (.string s) => .ok s.toList
  | other => .error (notAFunction other method)

def stringOf (s : List Char) : Value :=
  .string (String.ofList s)

/-- A position between zero and `length`, in characters; a negative one counts from the end. -/
def relativeIndex (index : Int) (length : Nat) : Nat :=
  if index < 0 then length - index.natAbs else min index.toNat length

/-- A position given by an argument, from the start. -/
def positionArgument (args : List Value) (i length : Nat) : Nat :=
  relativeIndex (max (argument args i).toInteger.toInt 0) length

/-- The character at a position, nothing if there is none. -/
def charAt : Callable := fun receiver args => do
  let s ← stringReceiver receiver "charAt"
  let index := (argument args 0).toInteger.toInt
  return stringOf (if index < 0 then [] else (s.drop index.toNat).take 1)

/-- A string followed by the texts of the arguments, or an array followed by the arguments, of
which arrays are taken apart. -/
def concat : Callable := fun receiver args =>
  match receiver with
  | some (.string s) => .ok (.string (s ++ String.join (args.map Value.text)))
  | some (.array items) => .ok (.array (items ++ args.flatMap elements))
  | other => .error (notAFunction other "concat")
where
  elements : Value → List Value
    | .array more => more
    | v => [v]

/-- A position as a value, `-1` for none. -/
def positionValue (position : Option Nat) : Value :=
  match position with
  | some n => .integer (Int64.ofNat n)
  | none => .integer (-1)

/-- The position of the first occurrence of a text or of a strictly equal element, at or after a
given one. -/
def indexOf : Callable := fun receiver args =>
  match receiver with
  | some (.string s) =>
    let s := s.toList
    let start := positionArgument args 1 s.length
    .ok (positionValue (indexOfFrom (argument args 0).text.toList s start))
  | some (.array items) =>
    let start := relativeIndex (argument args 1).toInteger.toInt items.length
    let found := (items.drop start).findIdx? fun v => v.strictEq (argument args 0)
    .ok (positionValue (found.map (start + ·)))
  | other => .error (notAFunction other "indexOf")

/-- The texts of the elements of an array with a text between them, by default a comma. -/
def join : Callable := fun receiver args =>
  match receiver with
  | some (.array items) =>
    let glue := match argument args 0 with
      | .undefined => ","
      | v => v.text
    .ok (.string (glue.intercalate (Value.elementTexts items)))
  | other => .error (notAFunction other "join")

/-- Replaces the first occurrence of a text, the first match of a regular expression, or every
match of a global one. -/
def replace : Callable := fun receiver args => do
  let s ← stringReceiver receiver "replace"
  match args with
  | [] => return stringOf s
  | search :: _ =>
    let replacement := (argument args 1).text.toList
    match search with
    | .regex literal =>
      let re ← literal.compile
      return stringOf (re.replaceBy literal.isGlobal replacement s)
    | search => return stringOf (replaceFirst search.text.toList replacement s)

/-- The pieces into which a separator cuts a string: characters if it is empty. -/
def splitPieces (s : List Char) (separator : Value) : Except CallError (List (List Char)) :=
  match separator with
  | .undefined => .ok [s]
  | .regex literal => literal.compile.map fun re => re.split s
  | separator =>
    let mark := separator.text.toList
    .ok (if mark.isEmpty then s.map fun c => [c] else pieces mark s)

/-- At most as many pieces as an argument says, if it is a number or a string. -/
def limitPieces (limit : Value) (parts : List (List Char)) : List (List Char) :=
  match limit with
  | .integer _ | .float _ | .string _ => parts.take (max limit.toInteger.toInt 0).toNat
  | _ => parts

def split : Callable := fun receiver args => do
  let s ← stringReceiver receiver "split"
  let parts ← splitPieces s (argument args 0)
  return .array ((limitPieces (argument args 1) parts).map stringOf)

/-- Whether a text stands at a position. -/
def startsWith : Callable := fun receiver args => do
  let s ← stringReceiver receiver "startsWith"
  let rest := s.drop (positionArgument args 1 s.length)
  return .boolean ((argument args 0).text.toList.isPrefixOf rest)

/-- Whether a text stands before a position, by default the end. -/
def endsWith : Callable := fun receiver args => do
  let s ← stringReceiver receiver "endsWith"
  let stop := match argument args 1 with
    | .undefined => s.length
    | _ => positionArgument args 1 s.length
  return .boolean ((argument args 0).text.toList.isSuffixOf (s.take stop))

/-- The characters from a position on, as many as asked for; a negative position counts from the
end. -/
def substr : Callable := fun receiver args => do
  let s ← stringReceiver receiver "substr"
  let start := relativeIndex (argument args 0).toInteger.toInt s.length
  let length := match argument args 1 with
    | .undefined => s.length
    | v => (max v.toInteger.toInt 0).toNat
  return stringOf ((s.drop start).take length)

/-- Whether a regular expression matches somewhere in the text of the argument. -/
def test : Callable := fun receiver args =>
  match receiver with
  | some (.regex literal) =>
    match args with
    | [] => .ok (.boolean false)
    | subject :: _ => literal.compile.map fun re => .boolean (re.isMatch subject.text.toList)
  | other => .error (notAFunction other "test")

def toLowerCase : Callable := fun receiver _ =>
  (stringReceiver receiver "toLowerCase").map fun s => stringOf (CaseMap.lower s)

def toUpperCase : Callable := fun receiver _ =>
  (stringReceiver receiver "toUpperCase").map fun s => stringOf (CaseMap.upper s)

/-- A string without the blanks around it. -/
def trimBlanks : Callable := fun receiver _ =>
  (stringReceiver receiver "trim").map fun s => stringOf (trim s)

/-- The methods under their names. -/
def standard : List (String × Callable) :=
  [("charAt", charAt), ("concat", concat), ("endsWith", endsWith), ("indexOf", indexOf),
   ("join", join), ("replace", replace), ("split", split), ("startsWith", startsWith),
   ("substr", substr), ("test", test), ("toLowerCase", toLowerCase),
   ("toUpperCase", toUpperCase), ("trim", trimBlanks)]

end Verdict.Method
