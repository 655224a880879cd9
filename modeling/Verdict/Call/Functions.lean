import Verdict.Call.Methods

namespace Verdict.Function

/-- The digits that a text begins with. -/
def leadingDigits (radix : Nat) : List Char → List Nat
  | [] => []
  | c :: rest =>
    match digit? radix c with
    | some d => d :: leadingDigits radix rest
    | none => []

/-- The number that digits denote: an integer if it fits into 64 bits with its sign left aside, and
else a floating-point number, rounded after each digit. -/
def ofDigits (radix : Nat) (negative : Bool) (ds : List Nat) : Value :=
  let n : Int := (ds.foldl (fun acc d => acc * radix + d) 0 : Nat)
  match int64? n with
  | some k => .integer (if negative then -k else k)
  | none =>
    let x := ds.foldl (fun acc d => acc * .ofInt radix + .ofInt d) (Double.ofInt 0)
    .float (if negative then -x else x)

/-- The base that an argument asks for by its last 32 bits; zero stands for ten. -/
def radixArgument (v : Value) : Nat :=
  let n := match v with
    | .undefined => 10
    | v => v.toInteger.toUInt64.toUInt32.toNat
  if n = 0 then 10 else n

/-- Takes off the mark of a hexadecimal number. -/
def takeHexMark : List Char → Option (List Char)
  | '0' :: 'x' :: rest => some rest
  | '0' :: 'X' :: rest => some rest
  | _ => none

/-- The base of a number and its digits with what follows them. The mark of a hexadecimal number
counts if the base is sixteen or no base is asked for. -/
def chooseRadix (radix : Nat) (asked : Bool) (s : List Char) : Nat × List Char :=
  if radix = 16 ∨ !asked then
    match takeHexMark s with
    | some rest => (16, rest)
    | none => (radix, s)
  else (radix, s)

/-- The integer that the text of a value begins with, NaN if there is none. -/
def parseInt : Callable := fun _ args =>
  let s := trimStart (argument args 0).text.toList
  let (negative, body) := takeSign s
  let (radix, body) := chooseRadix (radixArgument (argument args 1)) (2 ≤ args.length) body
  let ds := if 2 ≤ radix ∧ radix ≤ 36 then leadingDigits radix body else []
  .ok (if ds.isEmpty then .float .nan else ofDigits radix negative ds)

/-- The exponent that a text begins with: the letter, an optional sign and decimal digits. -/
def takeExponent (s : List Char) : List Char :=
  match s with
  | c :: rest =>
    if c = 'e' ∨ c = 'E' then
      let (sign, body) := match rest with
        | '-' :: body => (['-'], body)
        | '+' :: body => (['+'], body)
        | body => ([], body)
      let ds := body.takeWhile isDecimalDigit
      if ds.isEmpty then [] else c :: sign ++ ds
    else []
  | [] => []

/-- The decimal that a text begins with: digits with a point after or among them, or a point and
digits, and then an exponent. Digits of every script count. -/
def takeDecimal (s : List Char) : List Char :=
  let (whole, rest) := s.span isDecimalDigit
  match whole, rest with
  | [], '.' :: rest =>
    let (fraction, rest) := rest.span isDecimalDigit
    if fraction.isEmpty then [] else '.' :: fraction ++ takeExponent rest
  | [], _ => []
  | whole, '.' :: rest =>
    let (fraction, rest) := rest.span isDecimalDigit
    whole ++ '.' :: fraction ++ takeExponent rest
  | whole, rest => whole ++ takeExponent rest

/-- The number that a text begins with. Digits that are not those of ASCII make it none. -/
def leadingNumber (s : List Char) : Double :=
  let (negative, body) := takeSign s
  if "Infinity".toList.isPrefixOf body then .infinite negative
  else
    let number := takeDecimal body
    if number.isEmpty then .nan else (Double.readDecimal? negative number).getD .nan

/-- The number that the text of a value begins with, NaN if there is none. -/
def parseFloat : Callable := fun _ args =>
  .ok (.float (leadingNumber (trimStart (argument args 0).text.toList)))

/-- The functions under their names. -/
def standard : List (String × Callable) :=
  [("parseInt", parseInt), ("parseFloat", parseFloat)]

end Verdict.Function

namespace Verdict.Registry

/-- The standard methods and functions. -/
def standard : Registry := ⟨Method.standard, Function.standard⟩

end Verdict.Registry
