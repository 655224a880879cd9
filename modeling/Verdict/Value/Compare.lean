import Verdict.Value.Number

namespace Verdict.Value

/-- Comparison as numbers: exact where both have an exact form, NaN unordered. -/
def compareNumbers (a b : Value) : Option Ordering :=
  match a, b with
  | integer m, integer n => some (compare m.toInt n.toInt)
  | a, b =>
    if a.toNumber.isNaN || b.toNumber.isNaN then none
    else match a.toDecimal?, b.toDecimal? with
      | some x, some y => some (x.compareValue y)
      | _, _ => a.toNumber.compare? b.toNumber

/-- An array or a regular expression as its text, any other value as it is. -/
def primitive : Value → Value
  | array items => string (text (array items))
  | regex re => string re.text
  | v => v

/-- The order of two values: by characters for two texts, by number otherwise. -/
def looseCompare (a b : Value) : Option Ordering :=
  match a.primitive, b.primitive with
  | string s, string t => some (compare s t)
  | a, b => compareNumbers a b

/-- A flag as the number one or zero, any other value as `primitive` has it. -/
def scalar : Value → Value
  | boolean b => integer (if b then 1 else 0)
  | v => v.primitive

/-- Loose equality of two values that are not both arrays or both regular expressions. An absent
value equals absent values only. -/
def looseScalarEq (a b : Value) : Bool :=
  if a.isNullish || b.isNullish then a.isNullish && b.isNullish
  else match a.scalar, b.scalar with
    | string s, string t => s == t
    | a, b => compareNumbers a b == some .eq

mutual

def looseEq : Value → Value → Bool
  | array xs, array ys => looseEqAll xs ys
  | regex r, regex s => r == s
  | a, b => looseScalarEq a b

/-- Loose equality of lists, element by element. -/
def looseEqAll : List Value → List Value → Bool
  | [], [] => true
  | x :: xs, y :: ys => looseEq x y && looseEqAll xs ys
  | _, _ => false

end

mutual

/-- Strict equality: the same type and the same value. No operand is converted. -/
def strictEq : Value → Value → Bool
  | undefined, undefined => true
  | null, null => true
  | boolean a, boolean b => a == b
  | integer m, integer n => m == n
  | float x, float y => x.eqNumber y
  | string s, string t => s == t
  | array xs, array ys => strictEqAll xs ys
  | regex r, regex s => r == s
  | _, _ => false

/-- Strict equality of lists, element by element. -/
def strictEqAll : List Value → List Value → Bool
  | [], [] => true
  | x :: xs, y :: ys => strictEq x y && strictEqAll xs ys
  | _, _ => false

end

end Verdict.Value
