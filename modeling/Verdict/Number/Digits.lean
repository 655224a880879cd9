import Verdict.Number.Power

namespace Verdict

def digitValue (c : Char) : Nat :=
  c.toNat - '0'.toNat

/-- The value of a digit in a base of up to 36, in which letters of either case follow the nine. -/
def digit? (radix : Nat) (c : Char) : Option Nat :=
  let n :=
    if c.isDigit then digitValue c
    else if 'a' ≤ c ∧ c ≤ 'z' then c.toNat - 'a'.toNat + 10
    else if 'A' ≤ c ∧ c ≤ 'Z' then c.toNat - 'A'.toNat + 10
    else radix
  if n < radix then some n else none

/-- The value of a text of decimal digits, continuing `n`. -/
def readDigits (n : Nat) (ds : List Char) : Nat :=
  ds.foldl (fun acc c => acc * 10 + digitValue c) n

/-- The value of a text of hexadecimal digits. -/
def readHex? (ds : List Char) : Option Nat :=
  ds.foldlM (fun n c => (digit? 16 c).map (n * 16 + ·)) 0

/-- Splits off a leading sign; the flag says whether it is a minus. -/
def takeSign : List Char → Bool × List Char
  | '-' :: rest => (true, rest)
  | '+' :: rest => (false, rest)
  | s => (false, s)

def dropPlus : List Char → List Char
  | '+' :: rest => rest
  | s => s

/-- Reads a whole number of up to 64 bits, before which a plus sign may stand. -/
def readWord? (s : List Char) : Option Nat :=
  let ds := dropPlus s
  if ds.isEmpty || !ds.all Char.isDigit then none
  else if readDigits 0 ds < twoPow 64 then some (readDigits 0 ds)
  else none

/-- An integer as one of 64 bits with a sign, if it is in their range. -/
def int64? (n : Int) : Option Int64 :=
  if Int64.minValue.toInt ≤ n ∧ n ≤ Int64.maxValue.toInt then some (Int64.ofInt n) else none

/-- The decimal digits of a natural number. -/
def digits (n : Nat) : List Char :=
  Nat.toDigits 10 n

def intText (n : Int) : List Char :=
  if n < 0 then '-' :: digits n.natAbs else digits n.natAbs

end Verdict
