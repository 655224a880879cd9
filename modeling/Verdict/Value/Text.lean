import Verdict.Number.Double.Printer
import Verdict.Text.Quoted
import Verdict.Value.Basic

namespace Verdict.Value

mutual

def text : Value → String
  | undefined => "undefined"
  | null => "null"
  | boolean b => if b then "true" else "false"
  | integer n => String.ofList (intText n.toInt)
  | float x => String.ofList x.toText
  | string s => s
  | array items => ",".intercalate (elementTexts items)
  | regex re => re.text

/-- The texts of the elements of an array, empty for absent ones. -/
def elementTexts : List Value → List String
  | [] => []
  | v :: rest => (if v.isNullish then "" else v.text) :: elementTexts rest

end

mutual

/-- A value as messages show it: strings are quoted and arrays bracketed. -/
def display : Value → String
  | string s => quoted s
  | array items => "[" ++ ", ".intercalate (displays items) ++ "]"
  | undefined => "undefined"
  | null => "null"
  | boolean b => text (boolean b)
  | integer n => text (integer n)
  | float x => text (float x)
  | regex re => re.text

/-- The elements of an array as messages show them. -/
def displays : List Value → List String
  | [] => []
  | v :: rest => v.display :: displays rest

end

end Verdict.Value
