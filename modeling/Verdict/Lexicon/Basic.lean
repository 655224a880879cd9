import Verdict.Pattern.Reader
import Verdict.Pattern.Search
import Verdict.Token.Kind

namespace Verdict

/-- A pattern and the kind of the tokens that it matches. -/
structure TokenRule where
  kind : TokenKind
  pattern : String
  priority : Int
  regex : Regex
  deriving DecidableEq

namespace TokenRule

/-- A rule for a pattern, which is put into a group that is bound to the beginning of the text. -/
def ofPattern? (kind : TokenKind) (pattern : String) (priority : Int) :
    Except PatternError TokenRule :=
  (Regex.read {} ("\\A(?:" ++ pattern ++ ")").toList).map fun regex =>
    { kind, pattern, priority, regex }

/-- The rule that a call of `register` adds, if its pattern can be read. -/
def ofCall? (call : TokenKind × String × Int) : Option TokenRule :=
  (ofPattern? call.1 call.2.1 call.2.2).toOption

/-- The number of characters that a rule takes from the beginning of a text, if any. `length` is the
length of the text. -/
def matchLength? (rule : TokenRule) (s : List Char) (length : Nat) : Option Nat :=
  (rule.regex.matchEnd? s length).filter fun n => 0 < n

end TokenRule

/-- The table of token rules, by descending priority. -/
structure Lexicon where
  rules : List TokenRule
  deriving DecidableEq

namespace Lexicon

def empty : Lexicon := ⟨[]⟩

/-- Adds a rule after those of its priority. -/
def insert (lex : Lexicon) (rule : TokenRule) : Lexicon :=
  let before (r : TokenRule) : Bool := rule.priority ≤ r.priority
  ⟨lex.rules.takeWhile before ++ rule :: lex.rules.dropWhile before⟩

def register (lex : Lexicon) (kind : TokenKind) (pattern : String) (priority : Int) :
    Except PatternError Lexicon :=
  (TokenRule.ofPattern? kind pattern priority).map lex.insert

/-- The lexicon after a call of `register`, which changes nothing if it fails. -/
def tryRegister (lex : Lexicon) (call : TokenKind × String × Int) : Lexicon :=
  match lex.register call.1 call.2.1 call.2.2 with
  | .ok lex => lex
  | .error _ => lex

/-- The lexicon after calls of `register`, one after another. -/
def registerAll (lex : Lexicon) (calls : List (TokenKind × String × Int)) : Lexicon :=
  calls.foldl tryRegister lex

/-- The lexicon of these rules, less those with a pattern that cannot be read. -/
def ofRules (rules : List (TokenKind × String × Int)) : Lexicon :=
  empty.registerAll rules

/-- The kind and the number of characters of the token that a text begins with: those of the first
rule that takes any. `length` is the length of the text. -/
def matchPrefix? (lex : Lexicon) (s : List Char) (length : Nat) : Option (TokenKind × Nat) :=
  lex.rules.findSome? fun rule => (rule.matchLength? s length).map (rule.kind, ·)

end Lexicon

end Verdict
