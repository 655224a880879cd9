import Verdict.Number.Decimal
import Verdict.Text.Trim
import Verdict.Value.Text

namespace Verdict

/-- The number that a text denotes: zero for a blank one, NaN for one that is no number or out of
range. Only the word `Infinity` denotes an infinite number. -/
def readNumber (s : List Char) : Double :=
  let body := trim s
  if body = [] then 0
  else if body = "Infinity".toList ∨ body = "+Infinity".toList then .infinite false
  else if body = "-Infinity".toList then .infinite true
  else match Double.ofText? body with
    | some x => if x.isFinite then x else .nan
    | none => .nan

namespace Value

def toNumber : Value → Double
  | undefined => .nan
  | null => 0
  | boolean b => if b then 1 else 0
  | integer n => .ofInt n.toInt
  | float x => x
  | string s => readNumber s.toList
  | array items => readNumber (text (array items)).toList
  | regex _ => .nan

/-- The decimal that holds a value for comparison, if there is one. -/
def toDecimal? : Value → Option Decimal
  | integer n => Decimal.ofInt? n.toInt
  | float x => Decimal.ofDouble? x
  | string s =>
    let body := trim s.toList
    if body = [] then Decimal.ofInt? 0 else Decimal.ofText? body
  | boolean b => Decimal.ofInt? (if b then 1 else 0)
  | null => Decimal.ofInt? 0
  | _ => none

/-- Conversion to an integer: NaN becomes zero, fractions are dropped, and what is out of range
becomes the nearest end of the range. -/
def toInteger (v : Value) : Int64 :=
  match v.toNumber with
  | .infinite negative => if negative then Int64.minValue else Int64.maxValue
  | x => Int64.ofIntClamp (x.truncate?.getD 0)

end Value

end Verdict
