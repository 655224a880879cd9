namespace Verdict

/-- Where a token starts: the bytes before it in the text and in its line, and the number of the
line, from one. -/
structure Location where
  offset : Nat
  position : Nat
  line : Nat
  deriving DecidableEq, Repr

/-- The number of bytes of a text. -/
def byteLength (s : List Char) : Nat :=
  s.foldl (fun n c => n + c.utf8Size) 0

namespace Location

/-- The start of a text. -/
def start : Location := ⟨0, 0, 1⟩

/-- Where the token after this one starts. A newline token begins the position anew; the line feeds
in any other token count as lines and leave the position counting on. -/
def after (here : Location) (newline : Bool) (raw : List Char) : Location :=
  let bytes := byteLength raw
  if newline then ⟨here.offset + bytes, 0, here.line + 1⟩
  else ⟨here.offset + bytes, here.position + bytes, here.line + raw.count '\n'⟩

/-- A location as the end of a message. -/
def suffix (here : Location) : String :=
  " at position " ++ toString here.position ++ " on line " ++ toString here.line

end Location

end Verdict
