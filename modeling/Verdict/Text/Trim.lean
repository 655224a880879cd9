import Verdict.Text.Letter

namespace Verdict

/-- Drops the last characters that satisfy `p`. -/
def dropLastWhile (p : Char → Bool) (s : List Char) : List Char :=
  (s.reverse.dropWhile p).reverse

def trimStart (s : List Char) : List Char :=
  s.dropWhile isBlank

def trimEnd (s : List Char) : List Char :=
  dropLastWhile isBlank s

def trim (s : List Char) : List Char :=
  trimEnd (trimStart s)

end Verdict
