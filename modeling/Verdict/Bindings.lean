import Verdict.Text.CaseMap
import Verdict.Value.Basic

namespace Verdict

/-- Variables under their names in upper case, each name once: names that differ only in case name
the same variable. -/
structure Bindings where
  entries : List (String × Value)

namespace Bindings

def empty : Bindings := ⟨[]⟩

/-- Binds a name, in the place of a binding that differs only in case. -/
def insert (b : Bindings) (name : String) (v : Value) : Bindings :=
  let key := upperText name
  ⟨(key, v) :: b.entries.filter fun entry => entry.1 != key⟩

def get? (b : Bindings) (name : String) : Option Value :=
  b.entries.lookup (upperText name)

def contains (b : Bindings) (name : String) : Bool :=
  (b.get? name).isSome

def size (b : Bindings) : Nat :=
  b.entries.length

/-- Binds names in order, so that the last binding of a name counts. -/
def ofList (entries : List (String × Value)) : Bindings :=
  entries.foldl (fun b (name, v) => b.insert name v) empty

end Bindings

end Verdict
