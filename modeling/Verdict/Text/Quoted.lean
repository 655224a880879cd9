import Verdict.Text.Property

namespace Verdict

/-- Whether a character leaves a mark of its own on paper, or is a space. -/
def isPrintable (c : Char) : Bool :=
  c == ' ' || Category.of c ∉ [.control, .format, .surrogate, .privateUse, .unassigned,
    .lineSeparator, .paragraphSeparator, .spaceSeparator]

/-- The escape of a character by its code point. -/
def escapeCode (c : Char) : List Char :=
  "\\u\x7b".toList ++ Nat.toDigits 16 c.toNat ++ ['\x7d']

/-- A character as it stands between quotes: a character that extends the one before it is written
by its code point, as is one that cannot be shown. -/
def quoteChar (c : Char) : List Char :=
  match c with
  | '\x00' => ['\\', '0']
  | '\t' => ['\\', 't']
  | '\r' => ['\\', 'r']
  | '\n' => ['\\', 'n']
  | '"' => ['\\', '"']
  | '\\' => ['\\', '\\']
  | c =>
    if c.toNat < 128 && 32 ≤ c.toNat && c.toNat != 127 then [c]
    else if !Property.graphemeExtend.contains c && isPrintable c then [c]
    else escapeCode c

/-- A text in double quotes. -/
def quoted (s : String) : String :=
  String.ofList ('"' :: s.toList.flatMap quoteChar ++ ['"'])

end Verdict
