import Verdict.Json.Number

namespace Verdict.Json

def isSpace (c : Char) : Bool :=
  c == ' ' || c == '\t' || c == '\n' || c == '\r'

def skipSpace (s : List Char) : List Char :=
  s.dropWhile isSpace

def readFour? : List Char → Option (Nat × List Char)
  | a :: b :: c :: d :: rest => (readHex? [a, b, c, d]).map (·, rest)
  | _ => none

/-- The character of an escape of one letter. -/
def escaped? : Char → Option Char
  | '"' => some '"'
  | '\\' => some '\\'
  | '/' => some '/'
  | 'b' => some '\x08'
  | 'f' => some '\x0c'
  | 'n' => some '\n'
  | 'r' => some '\r'
  | 't' => some '\t'
  | _ => none

/-- Reads an escaped code point: a character beyond 16 bits is written as two halves. -/
def readCodePoint? (s : List Char) : Option (Char × List Char) := do
  let (high, rest) ← readFour? s
  if 0xdc00 ≤ high ∧ high ≤ 0xdfff then none
  else if 0xd800 ≤ high ∧ high ≤ 0xdbff then
    match rest with
    | '\\' :: 'u' :: rest =>
      let (low, rest) ← readFour? rest
      if 0xdc00 ≤ low ∧ low ≤ 0xdfff then
        return (Char.ofNat (0x10000 + (high - 0xd800) * 0x400 + (low - 0xdc00)), rest)
      else none
    | _ => none
  else return (Char.ofNat high, rest)

/-- Reads what follows a backslash. When skipping, any four digits will do. -/
def readEscape? (skipping : Bool) : List Char → Option (Char × List Char)
  | 'u' :: rest =>
    if skipping then (readFour? rest).map fun (_, rest) => ('u', rest) else readCodePoint? rest
  | c :: rest => (escaped? c).map (·, rest)
  | [] => none

/-- Reads a string after its first quote, with the characters so far, the last one first; `fuel`
bounds their number. -/
def readStringFrom (skipping : Bool) :
    Nat → List Char → List Char → Option (String × List Char)
  | 0, _, _ => none
  | fuel + 1, done, s =>
    match s with
    | [] => none
    | '"' :: rest => some (String.ofList done.reverse, rest)
    | '\\' :: rest => do
      let (c, rest) ← readEscape? skipping rest
      readStringFrom skipping fuel (c :: done) rest
    | c :: rest => if c.toNat < 32 then none else readStringFrom skipping fuel (c :: done) rest

/-- Reads a string after its first quote. -/
def readString? (skipping : Bool) (s : List Char) : Option (String × List Char) :=
  readStringFrom skipping (s.length + 1) [] s

/-- Skips the digits of a number, of which there is at least one. -/
def skipDigits? (s : List Char) : Option (List Char) :=
  let (ds, rest) := s.span Char.isDigit
  if ds.isEmpty then none else some rest

/-- Skips the exponent of a number if there is one. -/
def skipExponent? : List Char → Option (List Char)
  | c :: rest =>
    if c = 'e' ∨ c = 'E' then
      match rest with
      | '+' :: rest => skipDigits? rest
      | '-' :: rest => skipDigits? rest
      | rest => skipDigits? rest
    else some (c :: rest)
  | [] => some []

def skipNumber? (s : List Char) : Option (List Char) := do
  let s := match s with
    | '-' :: rest => rest
    | s => s
  let rest ← match s with
    | '0' :: c :: rest => if c.isDigit then none else some (c :: rest)
    | s => skipDigits? s
  match rest with
  | '.' :: rest => skipExponent? (← skipDigits? rest)
  | rest => skipExponent? rest

/-- The literal words. -/
def word? (s : List Char) : Option (Json × List Char) :=
  match s with
  | 'n' :: 'u' :: 'l' :: 'l' :: rest => some (.null, rest)
  | 't' :: 'r' :: 'u' :: 'e' :: rest => some (.boolean true, rest)
  | 'f' :: 'a' :: 'l' :: 's' :: 'e' :: rest => some (.boolean false, rest)
  | _ => none

/-- Reads a value that is neither array nor object. -/
def readScalar? (skipping : Bool) (s : List Char) : Option (Json × List Char) :=
  match s with
  | '"' :: rest => (readString? skipping rest).map fun (text, rest) => (.string text, rest)
  | c :: _ =>
    if c = '-' ∨ c.isDigit then
      if skipping then (skipNumber? s).map fun rest => (.null, rest) else readNumber? s
    else word? s
  | [] => none

/-- Reads the name of a member and the colon after it. -/
def readName? (skipping : Bool) (s : List Char) : Option (String × List Char) :=
  match s with
  | '"' :: rest => do
    let (name, rest) ← readString? skipping rest
    match skipSpace rest with
    | ':' :: rest => some (name, rest)
    | _ => none
  | _ => none

mutual

/-- Reads a value. At most `depth` arrays and objects may be open at once; `fuel` bounds the number
of parts. -/
def readValue (skipping : Bool) : Nat → Nat → List Char → Option (Json × List Char)
  | 0, _, _ => none
  | fuel + 1, depth, s =>
    match skipSpace s with
    | '[' :: rest =>
      match depth with
      | 0 => none
      | depth + 1 =>
        match skipSpace rest with
        | ']' :: rest => some (.array [], rest)
        | rest => readItems skipping fuel depth [] rest
    | '\x7b' :: rest =>
      match depth with
      | 0 => none
      | depth + 1 =>
        match skipSpace rest with
        | '\x7d' :: rest => some (.object [], rest)
        | rest => readMembers skipping fuel depth [] rest
    | s => readScalar? skipping s

/-- Reads the elements of an array, of which there is at least one more, with those so far, the last
one first. -/
def readItems (skipping : Bool) :
    Nat → Nat → List Json → List Char → Option (Json × List Char)
  | 0, _, _, _ => none
  | fuel + 1, depth, items, s => do
    let (v, rest) ← readValue skipping fuel depth s
    match skipSpace rest with
    | ',' :: rest => readItems skipping fuel depth (v :: items) rest
    | ']' :: rest => some (.array (v :: items).reverse, rest)
    | _ => none

/-- Reads the members of an object, of which there is at least one more, with those so far. Of
members with one name the last counts. -/
def readMembers (skipping : Bool) :
    Nat → Nat → List (String × Json) → List Char → Option (Json × List Char)
  | 0, _, _, _ => none
  | fuel + 1, depth, members, s => do
    let (name, rest) ← readName? skipping (skipSpace s)
    let (v, rest) ← readValue skipping fuel depth rest
    let members := insertMember name v members
    match skipSpace rest with
    | ',' :: rest => readMembers skipping fuel depth members rest
    | '\x7d' :: rest => some (.object members, rest)
    | _ => none

end

/-- The largest number of arrays and objects that may be open at once. -/
def maxDepth : Nat := 127

/-- Reads the text of one value. -/
def read? (text : String) : Option Json := do
  let s := text.toList
  let (v, rest) ← readValue false (2 * s.length + 2) maxDepth s
  if (skipSpace rest).isEmpty then some v else none

/-- Skips a value. Its numbers may be out of range, its escapes may name halves of characters, and
it may nest to any depth. -/
def skipValue? (s : List Char) : Option (List Char) :=
  (readValue true (2 * s.length + 2) s.length s).map Prod.snd

end Verdict.Json
