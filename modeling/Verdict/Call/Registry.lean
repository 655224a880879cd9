import Verdict.Fault
import Verdict.Text.Quoted

namespace Verdict

/-- Anything that can be called. A method is given its receiver, a function none. -/
abbrev Callable := Option Value → List Value → Except CallError Value

/-- The methods and the functions that a rule can call. The two do not share their names. -/
structure Registry where
  methods : List (String × Callable)
  functions : List (String × Callable)

namespace Registry

def empty : Registry := ⟨[], []⟩

/-- Enters a callable under a name, in the place of one that had it. -/
def enter (entries : List (String × Callable)) (name : String) (f : Callable) :
    List (String × Callable) :=
  (name, f) :: entries.filter fun entry => entry.1 != name

def addMethod (r : Registry) (name : String) (f : Callable) : Registry :=
  { r with methods := enter r.methods name f }

def addFunction (r : Registry) (name : String) (f : Callable) : Registry :=
  { r with functions := enter r.functions name f }

def method? (r : Registry) (name : String) : Option Callable :=
  r.methods.lookup name

def function? (r : Registry) (name : String) : Option Callable :=
  r.functions.lookup name

/-- The names of some entries, in order and quoted. -/
def nameList (entries : List (String × Callable)) : String :=
  let names := (entries.map Prod.fst).mergeSort fun a b => (compare a b).isLE
  "[" ++ ", ".intercalate (names.map quoted) ++ "]"

/-- The names that can be called. -/
def describe (r : Registry) : String :=
  "Registry \x7b methods: " ++ nameList r.methods ++ ", functions: " ++ nameList r.functions ++
    " \x7d"

end Registry

/-- The argument at a place, undefined if it was left out. -/
def argument (args : List Value) (i : Nat) : Value :=
  (args[i]?).getD .undefined

end Verdict
