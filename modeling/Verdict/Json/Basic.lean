import Verdict.Number.Double

namespace Verdict

/-- A value of JSON. A number that is an integer of 64 bits with a sign is kept exactly. -/
inductive Json where
  | null
  | boolean (b : Bool)
  | integer (n : Int64)
  | float (x : Double)
  | string (s : String)
  | array (items : List Json)
  | object (members : List (String × Json))

namespace Json

/-- Enters a member into an object whose members are in the order of their names, in the place of a
member of that name. -/
def insertMember (name : String) (v : Json) : List (String × Json) → List (String × Json)
  | [] => [(name, v)]
  | (other, w) :: rest =>
    if name < other then (name, v) :: (other, w) :: rest
    else if name = other then (name, v) :: rest
    else (other, w) :: insertMember name v rest

end Json

end Verdict
