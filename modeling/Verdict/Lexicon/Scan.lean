import Verdict.Lexicon.Basic
import Verdict.Token.Basic
import Verdict.Token.Literal

namespace Verdict.Lexicon

/-- The kind and the number of characters of the first token of a text. A character that begins no
token is one by itself, of the kind unknown. -/
def firstToken (lex : Lexicon) (s : List Char) (length : Nat) : TokenKind × Nat :=
  (lex.matchPrefix? s length).getD (.unknown, 1)

/-- The token of this kind and text. -/
def makeToken (kind : TokenKind) (raw : List Char) (location : Location) : Token :=
  let raw := String.ofList raw
  { kind, raw, value := Literal.value? kind raw, location }

/-- Goes on cutting a text, of which `length` characters are left, with the tokens so far, the last
one first; `fuel` bounds the number of tokens to come. -/
def scanFrom (lex : Lexicon) : Nat → Location → Nat → List Char → List Token → List Token
  | 0, _, _, _, done => done.reverse
  | _ + 1, _, _, [], done => done.reverse
  | fuel + 1, location, length, s, done =>
    let (kind, n) := lex.firstToken s length
    let raw := s.take n
    scanFrom lex fuel (location.after (kind == .newline) raw) (length - n) (s.drop n)
      (makeToken kind raw location :: done)

def scan (lex : Lexicon) (text : String) : List Token :=
  let s := text.toList
  lex.scanFrom s.length .start s.length s []

end Verdict.Lexicon
