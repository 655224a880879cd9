import Verdict.Lexicon.Basic

namespace Verdict.Lexicon

/-- The rules of the standard lexicon: kind, pattern and priority. Longer operators and words stand
above what they begin with, and both above the names of variables, so that `===` is one token and
`and` is no variable. -/
def standardRules : List (TokenKind × String × Int) :=
  [(.comment, r"//[^\r\n]*|#[^\r\n]*|/\*[\s\S]*?\*/", 150),
   (.newline, r"\r?\n", 145),
   (.space, r"[ \t\r]+", 140),
   (.method, r"\.\s*[a-zA-Z_]\w*\s*\(", 135),
   (.regex, r"/(?:\\.|[^\\/\r\n*])(?:\\.|[^\\/\r\n])*/[gimsuy]*", 130),
   (.comparison .equalStrict, r"===", 125),
   (.comparison .notEqualStrict, r"!==", 125),
   (.comparison .equal, r"==", 120),
   (.comparison .notEqual, r"!=|<>", 120),
   (.comparison .lessEqual, r"<=", 120),
   (.comparison .greaterEqual, r">=", 120),
   (.connective .and, r"&&", 120),
   (.connective .or, r"\|\|", 120),
   (.comparison .notEqual, r"is\s+not\b", 118),
   (.comparison .equal, r"is\b", 115),
   (.comparison .member, r"in\b", 115),
   (.connective .and, r"and\b", 115),
   (.connective .or, r"or\b", 115),
   (.boolean, r"(?:true|false)\b", 115),
   (.null, r"null\b", 115),
   (.undefined, r"undefined\b", 115),
   (.comparison .equal, r"=", 110),
   (.comparison .less, r"<", 110),
   (.comparison .greater, r">", 110),
   (.function, r"[a-zA-Z_]\w*\s*\(", 105),
   (.float, r"-?\d+\.\d+", 100),
   (.integer, r"-?\d+", 95),
   (.string, r#""(?:\\.|[^"\\])*"|'(?:\\.|[^'\\])*'"#, 90),
   (.identifier, r"[a-zA-Z_]\w*", 85),
   (.openParen, r"\(", 80),
   (.closeParen, r"\)", 80),
   (.openBracket, r"\[", 80),
   (.closeBracket, r"\]", 80),
   (.comma, r",", 80)]

def standard : Lexicon :=
  empty.registerAll standardRules

end Verdict.Lexicon
