import Verdict.Text.Category

namespace Verdict

def isBlank (c : Char) : Bool :=
  let n := c.toNat
  (9 ≤ n && n ≤ 13) || n == 0x20 || n == 0x85 || n == 0xa0 || n == 0x1680 ||
    (0x2000 ≤ n && n ≤ 0x200a) || n == 0x2028 || n == 0x2029 || n == 0x202f || n == 0x205f ||
    n == 0x3000

/-- The code points of the digits zero; the other nine digits follow each of them. -/
def decimalZeros : List Nat :=
  [0x30, 0x660, 0x6f0, 0x7c0, 0x966, 0x9e6, 0xa66, 0xae6, 0xb66, 0xbe6, 0xc66, 0xce6, 0xd66,
   0xde6, 0xe50, 0xed0, 0xf20, 0x1040, 0x1090, 0x17e0, 0x1810, 0x1946, 0x19d0, 0x1a80, 0x1a90,
   0x1b50, 0x1bb0, 0x1c40, 0x1c50, 0xa620, 0xa8d0, 0xa900, 0xa9d0, 0xa9f0, 0xaa50, 0xabf0,
   0xff10, 0x104a0, 0x10d30, 0x10d40, 0x11066, 0x110f0, 0x11136, 0x111d0, 0x112f0, 0x11450,
   0x114d0, 0x11650, 0x116c0, 0x116d0, 0x116da, 0x11730, 0x118e0, 0x11950, 0x11bf0, 0x11c50,
   0x11d50, 0x11da0, 0x11de0, 0x11f50, 0x16130, 0x16a60, 0x16ac0, 0x16b50, 0x16d70, 0x1ccf0,
   0x1d7ce, 0x1d7d8, 0x1d7e2, 0x1d7ec, 0x1d7f6, 0x1e140, 0x1e2f0, 0x1e4f0, 0x1e5f1, 0x1e950,
   0x1fbf0]

/-- Decimal digits of every script. -/
def isDecimalDigit (c : Char) : Bool :=
  if c.toNat < 128 then c.isDigit
  else decimalZeros.any fun z => z ≤ c.toNat && c.toNat < z + 10

/-- Lower-case characters outside the category of lower-case letters. -/
def otherLowercase : RunSet := .ofSteps
  ["4q 1 f 1 dx 9 7 2 u 5 2o 1 1g 1 2o1 1 2en 1r d 1 y 11 j5 1 d 1 g d 5v g nk q 1hu 2 o4e 2 5u",
   "1 3k 4 3 2 o2 4 9 1 i6u 1 2 3 1 16 1 9 16r9 1q"]

/-- Upper-case characters outside the category of upper-case letters. -/
def otherUppercase : RunSet := .ofSteps
  ["6lc g na q 2ixs q 6 q 6 q"]

/-- Alphabetic characters that are neither letters, letter numbers nor cased. -/
def otherAlphabetic : RunSet := .ofSteps
  ["o3 d g0 e 1 1 1 2 1 2 1 1 20 b 1c d 1 7 g 1 2t 7 4 4 2 2 4 1 z 1 u g 2u b 2t 2 3 9 1 3 1 4",
   "2y 1 1o c 3 7 6 k 1i 2 2 f 1 2 5 3 a 2 t 3 1m 7 2 2 2 2 a 1 a 2 t 3 1m 5 4 2 2 2 4 1 u 2 3 1",
   "b 3 1m 8 1 3 1 2 l 2 m 3 4 3 1m 7 2 2 2 2 9 2 a 2 u 1 1n 5 3 3 1 3 a 1 14 5 1l 7 1 3 1 3 8 2",
   "b 2 t 3 1m 7 1 3 1 3 8 2 b 2 f 1 c 4 1m 7 1 3 1 3 a 1 a 2 t 3 23 6 1 1 1 8 i 2 1p 1 2 7 i 1",
   "2r 1 2 6 1 2 g 1 4j j 9 b 1 10 32 c 1 1 2 4 n 4 4 3 1 3 2 7 3 4 d c 1 1 a 4 19w 2 u 2 u 2 u",
   "2 1u j 58 2 y 1 3a c 4 9 66 5 1l a 2 k 22 2 b 3 1d 5 1c f 1o 3 u 9 2 2 1l b 1e j bg y 357 w",
   "nsk 8 y 2 9u 1 8 1 n 5 2g 2 1e g 1 1 1l 1 12 5 s c 19 4 1c c 11 1 1v e c 1 8 2 19 3 1e 1 1 3",
   "2 2 5 1 18 5 5 1 6l 8 fn7 1 1nb 5 1ae 3 1 2 5 4 lw 4 1t 1 8x 2 25 3 77 3 1h e 19 2 b 3 19 9",
   "9 1 1p 3 10 c i 2 1l 3 1c d e 2 2k 9 2 1 6 1 2 1 4d a n 4 1m 7 2 2 2 2 a 1 a 2 2c 9 1 1 2 1",
   "1 4 1 2 2v d 1 3 2y i 6l 7 2 7 t 2 2a f 1 1 2y b 2v e 75 d 6v 6 1 2 2 2 3 1 1 1 3y 7 2 6 4 1",
   "s a 16 5 1 4 i b 1a e 5k 8 5j 8 1 7 2b m 1 e 3e 6 3 1 1 2 1 3 1 1 3 1 1u 5 1 2 1 4 9o 4 9 2",
   "1 1 1c 7 3 3 d0d h 2sg 1 1 1j 7 4 2l 2 f58 1 6zl 7 1 h 2 7 1 2 1 5 2s 1 18z 1 2 1 7 2 5 1 gh",
   "1"]

/-- Letters and what counts as one. -/
def isAlphabetic (c : Char) : Bool :=
  if c.toNat < 128 then c.isAlpha
  else Category.of c ∈ [.uppercaseLetter, .lowercaseLetter, .titlecaseLetter, .modifierLetter,
      .otherLetter, .letterNumber] ||
    otherLowercase.contains c || otherUppercase.contains c || otherAlphabetic.contains c

/-- Letters and numbers. -/
def isAlphanumeric (c : Char) : Bool :=
  isAlphabetic c || Category.of c ∈ [.decimalNumber, .letterNumber, .otherNumber]

/-- The characters that words are made of: letters, marks, decimal digits, connectors such as `_`,
and the two that govern joining. -/
def isWord (c : Char) : Bool :=
  if c.toNat < 128 then c.isAlphanum || c == '_'
  else isAlphabetic c || isDecimalDigit c || c == '\u200c' || c == '\u200d' ||
    Category.of c ∈ [.nonspacingMark, .spacingMark, .enclosingMark, .connectorPunctuation]

end Verdict
