import Verdict.Json.Reader
import Verdict.Limits

namespace Verdict.Limits

open Json

/-- Reads a natural number of up to 64 bits. -/
def readSize? (s : List Char) : Option (Nat × List Char) :=
  let s := skipSpace s
  let (ds, rest) := s.span Char.isDigit
  match ds with
  | [] => none
  | '0' :: _ :: _ => none
  | ds =>
    let n := readDigits 0 ds
    if n < twoPow 64 ∧ !continuesNumber rest then some (n, rest) else none

/-- How to read the members that count of an object, and its elements when it is written as an
array, into a value. -/
structure Fields (α : Type) where
  names : List String
  /-- Reads the field at a place in `names`. -/
  read : Nat → α → List Char → Option (α × List Char)

namespace Fields

variable {α : Type}

/-- Reads the value of a member, or skips it if its name means nothing; `seen` holds the places of
those that have been read, none of which may come again. -/
def readMember (fields : Fields α) (name : String) (seen : List Nat) (v : α) (s : List Char) :
    Option (List Nat × α × List Char) :=
  match fields.names.findIdx? (· == name) with
  | none => (skipValue? s).map fun rest => (seen, v, rest)
  | some i =>
    if seen.contains i then none
    else (fields.read i v s).map fun (v, rest) => (i :: seen, v, rest)

/-- Reads the members of an object, of which there is at least one more. -/
def readMembers (fields : Fields α) : Nat → List Nat → α → List Char → Option (α × List Char)
  | 0, _, _, _ => none
  | fuel + 1, seen, v, s => do
    let (name, rest) ← readName? false (skipSpace s)
    let (seen, v, rest) ← fields.readMember name seen v rest
    match skipSpace rest with
    | ',' :: rest => readMembers fields fuel seen v rest
    | '\x7d' :: rest => some (v, rest)
    | _ => none

/-- Reads the elements of an array, of which there is at least one more, from the field at place `i`
on. -/
def readItems (fields : Fields α) : Nat → Nat → α → List Char → Option (α × List Char)
  | 0, _, _, _ => none
  | fuel + 1, i, v, s => do
    let (v, rest) ← fields.read i v s
    match skipSpace rest with
    | ',' :: rest => readItems fields fuel (i + 1) v rest
    | ']' :: rest => some (v, rest)
    | _ => none

/-- Reads an object, or an array with the fields in order. -/
def readAll (fields : Fields α) (v : α) (s : List Char) : Option (α × List Char) :=
  match skipSpace s with
  | '\x7b' :: rest =>
    match skipSpace rest with
    | '\x7d' :: rest => some (v, rest)
    | rest => fields.readMembers rest.length [] v rest
  | '[' :: rest =>
    match skipSpace rest with
    | ']' :: rest => some (v, rest)
    | rest => fields.readItems rest.length 0 v rest
  | _ => none

end Fields

/-- The fields of limits. -/
def fields : Fields Limits where
  names := ["max_rule_length", "max_nesting_depth"]
  read i limits s :=
    match i with
    | 0 => (readSize? s).map fun (n, rest) => ({ limits with maxRuleLength := n }, rest)
    | 1 => (readSize? s).map fun (n, rest) => ({ limits with maxNestingDepth := n }, rest)
    | _ => none

/-- The field of a configuration. -/
def configuration : Fields Limits where
  names := ["limits"]
  read i limits s :=
    match i with
    | 0 => fields.readAll limits s
    | _ => none

/-- Reads a configuration; `defaults` holds where it says nothing. -/
def ofJson? (defaults : Limits) (text : String) : Option Limits := do
  let (limits, rest) ← configuration.readAll defaults text.toList
  if (skipSpace rest).isEmpty then some limits else none

end Verdict.Limits
