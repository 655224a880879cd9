import Verdict.Text.CharSet

namespace Verdict.Property

/-- Spacing characters that nevertheless extend the one before them. -/
def otherGraphemeExtend : CharSet :=
  .runs (.ofSteps
  ["1xa 1 o 1 9y 1 o 1 2u 1 o 1 6g 1 1 1 4 2 1 2 9 2 2v 1 o 1 3b 1 f 1 1th 1 u 1 sg 1 5 1 1 1 5",
   "2 2t 1 1z 2 t4 1 36p 2 nxf 1 30 1 gyl 2 3kw 1 38 1 7c 1 e 1 9 1 2o 1 9 1 2 1 1 3 5 1 68 1 c",
   "1 6p 1 7a 1 hl 1 c 1 16r 1 fxq 2 j8z 2 6 6 h419 2o"])

/-- Punctuation that may stand inside a word. -/
def wordInnerPunctuation : CharSet :=
  .runs (.ofSteps
  ["13 1 6 1 b 1 3g 1 jz 1 d3 1 44 1 55v 2 a 1 2 1 17u3 1 1q 1 2 1 4x 1 6 1 b 1"])

/-- Mathematical characters outside the category of mathematical symbols. -/
def otherMath : CharSet :=
  .runs (.ofSteps
  ["2m 1 oh 3 2 1 q 2 2 2 5k0 1 r 3 b 1 w 4 o 2 e 2 1t d 4 1 3 2 4 5 i 1 4 1 2 a 1 1 3 5 6 1 3 2",
   "2 2 1 3 1 6 3 4 5 5 23 5 2 4 1 2 1 2 1 1 1 5 2 2 4 2 4 i 2 2 1 1 1 7 1 1 6 2 82 4 4o 2 1 1 o",
   "1 h 1 cd 2 c 9 5 5 5 2 2 2 3 5 e 1 1 1 2 6 o 2 1l 1 1 1 t 4 9 2 9i 2 v a b7 m 1r 4 w 2 15yb",
   "1 1 1 4 1 5v 1 1 1 160x 2d 1 1z 1 2 2 1 2 2 2 4 1 c 1 1 1 7 1 1t 1 4 2 8 1 7 1 s 1 4 1 5 1 1",
   "3 7 1 9g 2 p 1 p 1 v 1 p 1 v 1 p 1 v 1 p 1 v 1 p 1 8 2 1e 4cg 4 1 r 1 2 1 1 2 1 1 a 1 4 1 1",
   "1 1 6 1 4 1 1 1 1 1 1 3 1 2 1 1 2 1 1 1 1 1 1 1 1 1 1 2 1 1 2 4 1 7 1 4 1 4 1 1 1 a 1 h 5 3",
   "1 5 1 h"])

def letter : CharSet :=
  .ofCategories [.uppercaseLetter, .lowercaseLetter, .titlecaseLetter, .modifierLetter,
    .otherLetter]

def mark : CharSet :=
  .ofCategories [.nonspacingMark, .spacingMark, .enclosingMark]

def lowercase : CharSet :=
  .category .lowercaseLetter ∪ .runs otherLowercase

def uppercase : CharSet :=
  .category .uppercaseLetter ∪ .runs otherUppercase

def cased : CharSet :=
  lowercase ∪ uppercase ∪ .category .titlecaseLetter

/-- Characters that casing looks through. -/
def caseIgnorable : CharSet :=
  .ofCategories [.nonspacingMark, .enclosingMark, .format, .modifierLetter, .modifierSymbol] ∪
    wordInnerPunctuation

/-- Letters and what counts as one. -/
def alphabetic : CharSet :=
  letter ∪ .category .letterNumber ∪ .runs otherLowercase ∪ .runs otherUppercase ∪
    .runs otherAlphabetic

/-- Characters that extend the one before them. -/
def graphemeExtend : CharSet :=
  .ofCategories [.nonspacingMark, .enclosingMark] ∪ otherGraphemeExtend

/-- Characters that stand on their own. -/
def graphemeBase : CharSet :=
  CharSet.compl (graphemeExtend ∪ .ofCategories [.control, .format, .surrogate, .privateUse,
    .unassigned, .lineSeparator, .paragraphSeparator])

def math : CharSet :=
  .category .mathSymbol ∪ otherMath

/-- The two characters that govern joining. -/
def joinControl : CharSet :=
  .range '\u200c' '\u200d'

def idStart : CharSet :=
  (letter ∪ .category .letterNumber ∪ .runs (.ofSteps ["4ud 2 1ox 1 l 1 31o 2"])) \
    .runs (.ofSteps ["94f 1"])

def idContinue : CharSet :=
  idStart ∪ mark ∪ .ofCategories [.decimalNumber, .connectorPunctuation] ∪
    .runs (.ofSteps ["53 1 jz 1 34x 9 19k 1 181 2 3cd 1 14rt 1"])

/-- Characters that may start an identifier in every normal form. -/
def xidStart : CharSet :=
  idStart \ .runs (.ofSteps
  ["oq 1 248 1 3j 1 6p3 2 148x 6 ba 2 38 1 1 1 1 1 1 1 1 1 1 1 1 1 1 1 7z 2"])

/-- Characters that may continue an identifier in every normal form. -/
def xidContinue : CharSet :=
  idContinue \ .runs (.ofSteps
  ["oq 1 8ww 2 148x 6 ba 2 38 1 1 1 1 1 1 1 1 1 1 1 1 1 1 1"])

def changesWhenLowercased : CharSet :=
  (uppercase ∪ .category .titlecaseLetter) \ .runs (.ofSteps
  ["r6 3 5rh 1 4 1 3 3 2 3 2 1 3 5 6 1 3 1 3 2 2 2 1 1 a 2 5 1 2dve q q q q q q 1 1 2 2 1 2 2 2",
   "4 1 8 q q q 2 1 4 2 8 1 7 r 2 1 4 1 5 1 1 3 7 r q q q q q q q q q q q u p x p x p x p x p x",
   "1 50l q 6 q 6 q"])

def changesWhenUppercased : CharSet :=
  (lowercase ∪ .category .titlecaseLetter) \ .runs (.ofSteps
  ["4q 1 f 1 3h 1 2c 1 s 2 e 1 3 1 2q 1 i 6 r 1 2 1 1 1 2 3 2 1 4 1 5 2 1 1 2 2 1 7 1 2 1 1 2 3",
   "6 5 1 1 2 7 2 q 7 2 u 5 45 1 3l 1 9v 1 13 1 29f 1 2df 3d 1 3 1 g 1 1d 64 2 1 1 cx 1 d 1 g d",
   "31 1 3 2 3 1 r 1 4 1 4 1 2 2 8 4 27b 1 2 1 2 7 2u 1 o1j 2 42 2 1q 9 l 1 6 1 p 1 1t 4 3 3 mt",
   "z 1 7 1 e i6u 1 2 3 1 16 1 9 14db q q 7 1 i q q q 4 1 1 1 7 1 b q q q q q q q q q q q q q q",
   "q q q s s p 1 6 q p 1 6 q p 1 6 q p 1 6 q p 1 6 1 1 1f8 a 1 k 6 6 79 1q"])

def changesWhenTitlecased : CharSet :=
  (changesWhenUppercased \ .runs (.ofSteps
    ["cl 1 2 1 2 1 12 1 2xp 17 2 3 2vc 8 8 8 8 8 c 1 f 1 1b 1"])) ∪
  .runs (.ofSteps ["ck 1 2 1 2 1 12 1"])

def changesWhenCasefolded : CharSet :=
  (changesWhenLowercased \ .runs (.ofSteps ["3vk 2e"])) ∪
  .runs (.ofSteps
  ["51 1 15 1 2x 1 1h 1 cl 1 3g 1 d 2 3 2 p 2 3 1 b5 1 2uo 6 1oi 9 ep 2 6c 8 8 8 8 8 a 3 2 1 a 3",
   "2 1 16 3 2 1 rjs 28 fnk 7 c 5"])

def changesWhenCasemapped : CharSet :=
  changesWhenLowercased ∪ changesWhenUppercased ∪ changesWhenTitlecased

/-- Controls of writing direction. -/
def bidiControl : CharSet :=
  .runs (.ofSteps
  ["17g 1 54h 2 q 5 1j 4"])

/-- Characters mirrored in right-to-left text. -/
def bidiMirrored : CharSet :=
  .runs (.ofSteps
  ["14 2 i 1 1 1 s 1 1 1 t 1 1 1 19 1 f 1 2v2 4 1gd 2 1wc 2 a 2 1i 2 e 2 4x 1 5c 4 3 6 3 1 3 2 3",
   "4 1 4 1 1 1 1 4 9 5 1 1 i 5 4 9 2 1 1 1 8 1 w 2 4 5 1 9 2 2 j 5 2 9 5 2 2 4 o 2 g 8 4 k 2 7",
   "2 u5 e 22 1 2 4 1 2 1 3 5 4 5 3 3 e b7 m 2 6 1 e 8 1 7 6 3 1 4 5 1 2 2 5 4 1 1 3 2 2 a 6 2 2",
   "c j 1 4 2 1 1 1 2 1 1 4 5 2 6 3 o 2 b 2 4 4 1 2 2 2 4 17 2 8 1 14 5 1 1 1 3 5 5 3 4 1 3 5 1",
   "1 74 1 eb 4 3 2 1 2 e 2 2 a 17 8 bv a 2 8 14ql 6 5 2 4i 2 i 1 1 1 s 1 1 1 t 1 1 1 1 2 1 2",
   "16k7 1 1l 1 1l 1 1l 1 1l 1"])

def dash : CharSet :=
  .runs (.ofSteps
  ["19 1 124 1 1f 1 2td 1 sl 1 1l5 6 1p 1 13 1 f 1 au 1 2dg 1 2 1 v 2 4 1 s 1 ce 1 j 1 33 1 14ls",
   "2 11 1 a 1 4p 1 2u8 1 8u 1"])

/-- Characters to be ignored when they cannot be shown. -/
def defaultIgnorable : CharSet :=
  .runs (.ofSteps
  ["4t 1 ip 1 jw 1 282 2 18z 2 2d 5 1kr 5 q 5 1d g 3ck 1 14ez g 6n 1 4g 1 27 9 119j 4 43z 8 h405",
   "35s"])

def deprecated : CharSet :=
  .runs (.ofSteps
  ["95 1 10p 1 1s3 1 1 1 1m1 2 1qd 6 jd 2 jh06 1"])

def diacritic : CharSet :=
  .runs (.ofSteps
  ["2m 1 1 1 1z 1 6 1 4 1 2 2 dz 4f 1 8 5 6 h 2 4 1 9 2 71 5 5t 1 1j 19 1 1 1 2 1 2 1 1 3n 8 4 2",
   "3q 2 4 2 3 3 1v r 2j b 1m b y 2 3i 8 15 a g s 1p 1 g 1 3 4 s 1 22 1 g 1 32 1 g 1 32 1 g 1 1b",
   "3 1o 1 g 1 7 1 3b 1 32 1 g 1 32 1 g 1 31 2 g 1 3g 1 33 1 c 6 1 1 2z 1 d 5 23 2 r 1 1 1 1 1 4",
   "2 1u 3 1 2 1q 1 34 1 1 2 14 2 4 5 p 7 1 1 a 2 jl 3 qc 2 u 1 44 b 9 1 9n 3 84 1 k 8 2 1 1c f",
   "2 b 3 f 2 c 20 1 f 1 12 9 1i 2 1m 1 b 2 1u 2 1s 6 2a p 4 1 6 1 2 3 1e 1r 1c 10 5 c 11 b cd 1",
   "1 3 b 3 d 3 d 3 d 2 2k0 3 8t 1 e2 6 2x 4 2n 1 n76 1 c 2 1 1 s 2 2a 2 e y 2u 3 2u 1 6 2 c 1",
   "11 1 47 1 r i 1l 4 10 1 2n 1 c 1 10 1 45 3 1t 4 1f 1 2s 5 9 3 3k 2 fn4 1 ld g 7i 1 1 1 1b 1",
   "19 2 1v 1 l8 1 wv 6 1 16 1 9 hp 3 4 1 4l 2 fv 6 12 1 q 5 b0 1 2 3 1y b 1d 4 5c 1 15 1 20 2",
   "3c 2 1q 1 24 1 9 3 2w 2 4y 2 28 2 g 1 o 7 3 5 2h 3 1 2 d 2 2n 1 3 1 3f 2 6z 2 3i 1 3a 2 37 1",
   "7h 2 76 2 4 1 4c 1 2b 1 i 1 29 1 bp 1 76 1 1 2 29 1 1t 1 9z 2 n 1 44s f 8ux 1 1xc 5 1n 7 fo",
   "2 f6 h 28 2 cn2 4 1 7 1 2 64h 1a 2 n f4 3 3 6 8 8 2 7 u 4 2v6 1q 5e 7 af 1 1p 4 la 2 kg 7 31",
   "3 1 3"])

def emoji : CharSet :=
  .runs (.ofSteps
  ["z 1 6 1 5 a 33 1 4 1 68d 1 c 1 60 1 m 1 2i 6 f 2 a7 2 c 1 4m 1 p b 4 3 5j 1 6f 2 a 1 9 1 1m",
   "4 1 5 9 1 2 1 2 2 2 1 4 1 2 1 1 2 2 1 3 1 3 2 8 3 5 1 1 1 5 c b 2 2 1 1 2 1 1 i 1 2 2 i 6 1",
   "1 1 2 3 2 5 1 2 2 4 2 b 2 5 2 2 1 5 2 1 1 1 2 k 2 5 6 1 4 2 1 4 1 2 1 2 6 1 1 2 1 1 1 1 1 6",
   "1 3 1 6 1 a 2 f 1 2 1 4 1 1 1 4 3 1 1 b 2 1c 3 9 1 e 1 e 1 ac 2 cv 3 j 2 1f 1 4 1 yi 1 c 1",
   "gp 1 1 1 2fze 1 5m 1 4g 2 c 2 e 1 2 a 23 q 1 2 n 1 k 1 2 9 l 2 4u y 2 34 2 2 1 3 2 2b 2 3 1",
   "7b 1 1r b 6 1 o 7 2 2 8 c 1 2 4 2 1 4 2 d 2 2 1 8 2 9 1 5 3 c 3 8 3 2 1 1 1 4 1 6 1 3 1 6 2e",
   "1c 1y 5 8 2 4 3 a 3 1 1 2 3 1 2 a 6b c 4 1 7v 1b 1 a 1 55 34 d 3 b 3 1l 1 1 4 g 2 c 4 a"])

def emojiComponent : CharSet :=
  .runs (.ofSteps
  ["z 1 6 1 5 a 6ab 1 5x 1 17or 1 1c5y q e3 5 14g 4 gw30 2o"])

/-- Skin tones of emoji. -/
def emojiModifier : CharSet :=
  .runs (.ofSteps
  ["2qrf 5"])

/-- Emoji that take a skin tone. -/
def emojiModifierBase : CharSet :=
  .runs (.ofSteps
  ["7j1 1 63 1 g 4 2iyf 1 1o 3 2 1 2 3 39 2 2 b l j 3 1 4 3 1 3 7 1 1 1 o 1 5l 2 4 1 l 1 4 2 4u",
   "3 3 5 2b 1 g 3 9 1 b 1 fz 1 2 1 8 8 6 1 9 a 2 3 1k 1 1p 2 1 2 1 1 h 3 1 d 6d 3 16 9"])

/-- Emoji shown as pictures. -/
def emojiPresentation : CharSet :=
  .runs (.ofSteps
  ["6xm 2 5p 4 3 1 2 1 eh 2 l 2 1e c 17 1 j 1 d 1 8 2 h 2 5 2 8 1 5 1 l 1 7 2 1 1 4 1 2 1 7 1 4",
   "2 s 1 z 1 1 1 4 3 1 1 1p 3 o 1 e 1 nv 2 1f 1 4 1 2hf2 1 5m 1 5a 1 2 a 23 q 1 1 o 1 k 1 2 5 1",
   "3 l 2 4u x c 9 1 1y 1 m c 17 4 5 c h 3 1 3 1z 1 1 1 57 2 1r d 4 1 o i 1 q 2 d 1 2e 2d 1c 1y",
   "6 1 3 3 2 4 3 4 b 2 7 9 6b c 4 1 7v 1b 1 a 1 55 34 d 3 b 3 1l 1 1 4 g 2 c 4 a"])

def extendedPictographic : CharSet :=
  .runs (.ofSteps
  ["4p 1 4 1 68d 1 c 1 60 1 m 1 2i 6 f 2 a7 2 c 1 4m 1 p b 4 3 5j 1 6f 2 a 1 9 1 1m 4 1 5 9 1 2",
   "1 2 2 2 1 4 1 2 1 1 2 2 1 3 1 3 2 8 3 5 1 1 1 5 c b 2 2 1 1 2 1 1 i 1 2 2 i 6 1 1 1 2 3 2 5",
   "1 2 2 4 2 b 2 5 2 2 1 5 2 1 1 1 2 k 2 5 6 1 4 2 1 4 1 2 1 2 6 1 1 2 1 1 1 1 1 6 1 3 1 6 1 a",
   "2 f 1 2 1 4 1 1 1 4 3 1 1 b 2 1c 3 9 1 e 1 e 1 ac 2 cv 3 j 2 1f 1 4 1 yi 1 c 1 gp 1 1 1 2fze",
   "1 13 4 2s c f 2 f 1 e 2 11 a 34 2 c 2 e 1 2 a j 1k r f a 1 k 1 2 9 1 4 9 n 6 58 2 34 2 2 1 3",
   "2 2b 2 3 1 4 5 72 1 1r b 6 1 o 7 2 2 8 c 1 2 4 2 1 4 2 d 2 2 1 8 2 9 1 5 3 c 3 8 3 2 1 1 1 4",
   "1 6 1 3 1 6 2e 1c 1y 5 8 2 h 3 1 1 6 2 d 62 12 c 4 1k 8 a 6 14 8 u 2 c 4 2 e 9 13 c 1b 1 a 1",
   "55 2g 8 e 42 74 se"])

/-- Characters that lengthen the one before them. -/
def extender : CharSet :=
  .runs (.ofSteps
  ["53 1 ew 2 oe 1 c9 1 hi 1 3t 1 2h 1 kw 1 3j 1 1tv 1 1k 1 gz 1 b2 1 1w 1 3ux 1 17 5 2v 2 2l 3",
   "lxy 1 16e 1 qq 1 m 1 3t 1 30 1 l 2 gor 1 1lc 2 157 1 r 1 4 1 xz 1 85 1 38 2 du 3 y7 1 n4 1",
   "fag 2 ws 2 1 1 e 2 mdk 2 xd 1 no 3"])

def hexDigit : CharSet :=
  .runs (.ofSteps
  ["1c a 7 6 q 6 1eax a 7 6 q 6"])

/-- Operators of ideographic descriptions. -/
def idsBinaryOperator : CharSet :=
  .runs (.ofSteps
  ["9gw 2 2 a dt 1"])

def ideographic : CharSet :=
  .runs (.ofSteps
  ["9hi 2 p 9 e 3 qt 534 1s g74 hkw a6 2 2y n4a 1 d 5 9 5p2 15 w 2p 37 70d b0 f7o wyo w 3dq 2",
   "4ge 2 5rl f ha 1wi f2 15u 3t7 5 6ju"])

/-- Vowels written before the consonant they follow. -/
def logicalOrderException : CharSet :=
  .runs (.ofSteps
  ["2tc 5 3f 5 25s 3 2 1 smy 2 2 1 1 2"])

/-- Code points that are never characters. -/
def noncharacter : CharSet :=
  .runs (.ofSteps
  ["1e4w w em 2 1eke 2 1eke 2 1eke 2 1eke 2 1eke 2 1eke 2 1eke 2 1eke 2 1eke 2 1eke 2 1eke 2",
   "1eke 2 1eke 2 1eke 2 1eke 2 1eke 2"])

/-- Characters with a meaning in patterns. -/
def patternSyntax : CharSet :=
  .runs (.ofSteps
  ["x f a 7 q 4 1 1 q 4 y 7 1 1 1 2 1 1 1 2 4 1 4 1 3 1 n 1 v 1 654 o 8 f 2 j 1 a 8h k0 4g hi u",
   "vg e8 3k ap 3 4 p f 1 14i5 2 79 2"])

def quotationMark : CharSet :=
  .runs (.ofSteps
  ["y 1 4 1 3n 1 f 1 670 8 p 2 2rr 1 cp 4 d 3 14pt 4 59 1 4 1 2i 2"])

def radical : CharSet :=
  .runs (.ofSteps
  ["96o q 1 2h c 5y"])

def sentenceTerminal : CharSet :=
  .runs (.ofSteps
  ["x 1 c 1 g 1 11l 1 43 3 50 1 17 3 6u 1 1p 1 1 1 3 2 85 2 1d0 2 ly 1 4 2 lh 1 5i 2 4d 2 19 1 5",
   "1 8q 2 9u 4 4i 2 a 2 2 2 t 3 57 2 1t 2 pw 1 n 2 9 3 2i7 3 8i 1 d 1 m 2 bx 1 n3w 1 7i 2 6b 1",
   "3 1 am 2 2e 2 2n 1 48 2 43 3 40 2 6x 1 g86 1 2 2 1n 1 3 2 4p 1 c 1 g 1 1t 1 25w 2 zh 5 18 4",
   "59 2 39 4 3j 3 3l 2 6 1 g 2 2g 2 1 2 30 1 8a 2 39 2 ad 2 5 f 2x 2 6x 3 ed 1 1 1 6z 2 2f 2 bo",
   "2 j8 2 22 2 euh 2 3p 1 1t 2 b 1 fd 2 88 1 feu 1 5wo 1"])

/-- Letters whose dot gives way to an accent. -/
def softDotted : CharSet :=
  .runs (.ofSteps
  ["2x 2 5g 1 7t 1 u 1 1g 1 k 1 8w 1 2q 1 1 1 4y1 1 1f 1 d 1 3 1 3o 1 4d 1 bp 1 5y 2 27m 1 2bol",
   "2 1e 2 1e 2 1e 2 1e 2 1e 2 1e 2 1e 2 1e 2 1e 2 1e 2 1e 2 1e 2 1om 1 8h 2 q 1"])

/-- Marks that end a unit of text. -/
def terminalPunctuation : CharSet :=
  .runs (.ofSteps
  ["x 1 a 1 1 1 b 2 3 1 n2 1 8 1 e9 1 1l 1 20 1 e 1 1 3 50 1 17 b 1 1 6j 2 1i 6 1 8 v 1 79 2 z8",
   "2 4s 1 4 6 8n 2 lx 8 lh 1 3g 3 1z 2 4d 3 3 1 13 4 2 2 8q 2 9u 4 4i 2 a 2 1 3 t 3 57 5 1q 2",
   "pw 1 n 2 9 3 2i7 3 8i 1 d 1 4 1 a 1 1 2 3 2 bw 2 n3v 2 7h 3 6b 5 am 2 2e 2 2n 1 47 3 43 3 3j",
   "1 g 2 6x 1 g86 1 2 2 1l 3 1 4 4p 1 a 1 1 1 b 2 3 1 1t 1 2 1 u2 1 1c 1 w6 1 5j 1 8m 2 48 6 1w",
   "6 2h 4 qg 5 18 4 59 7 34 4 3j 3 3l 2 6 1 g 2 2g 5 30 1 8a 2 39 3 c 2 9y 4 3 f 2x 2 6x 3 ed 1",
   "1 1 6z 2 2f 2 4 2 bi 3 19 1 hx 2 22 2 10r 5 dtl 2 3p 1 1t 3 a 1 fd 2 87 2 feu 1 5wn 4"])

def unifiedIdeograph : CharSet :=
  .runs (.ofSteps
  ["a9s 534 1s g74 hse 2 1 1 1 2 a 1 1 1 1 2 2 3 1fpy wyo w 3dq 2 4ge 2 5rl f ha 3he 3t7 5 6ju"])

def variationSelector : CharSet :=
  .runs (.ofSteps
  ["4qz 3 1 1 19f4 g i9yo 6o"])

def asciiHexDigit : CharSet :=
  .range '0' '9' ∪ .range 'A' 'F' ∪ .range 'a' 'f'

/-- Operators of ideographic descriptions with three parts. -/
def idsTrinaryOperator : CharSet :=
  .range '\u2ff2' '\u2ff3'

def patternBlank : CharSet :=
  .range '\t' '\r' ∪ .char ' ' ∪ .char '\u0085' ∪ .range '\u200e' '\u200f' ∪
    .range '\u2028' '\u2029'

/-- Letters of flags. -/
def regionalIndicator : CharSet :=
  .range (Char.ofNat 0x1f1e6) (Char.ofNat 0x1f1ff)

/-- The properties by their short and long names, in lower case and without separators. Most follow
from the general category and a table of further characters, as the standard derives them. -/
def named : List (String × CharSet) :=
  [("ahex", asciiHexDigit), ("asciihexdigit", asciiHexDigit), ("alpha", alphabetic),
   ("alphabetic", alphabetic), ("bidic", bidiControl), ("bidicontrol", bidiControl),
   ("bidim", bidiMirrored), ("bidimirrored", bidiMirrored), ("ci", caseIgnorable),
   ("caseignorable", caseIgnorable), ("cased", cased), ("cwcf", changesWhenCasefolded),
   ("changeswhencasefolded", changesWhenCasefolded), ("cwcm", changesWhenCasemapped),
   ("changeswhencasemapped", changesWhenCasemapped), ("cwl", changesWhenLowercased),
   ("changeswhenlowercased", changesWhenLowercased), ("cwt", changesWhenTitlecased),
   ("changeswhentitlecased", changesWhenTitlecased), ("cwu", changesWhenUppercased),
   ("changeswhenuppercased", changesWhenUppercased), ("dash", dash), ("di", defaultIgnorable),
   ("defaultignorablecodepoint", defaultIgnorable), ("dep", deprecated),
   ("deprecated", deprecated), ("dia", diacritic), ("diacritic", diacritic), ("emoji", emoji),
   ("ecomp", emojiComponent), ("emojicomponent", emojiComponent), ("emod", emojiModifier),
   ("emojimodifier", emojiModifier), ("ebase", emojiModifierBase),
   ("emojimodifierbase", emojiModifierBase), ("epres", emojiPresentation),
   ("emojipresentation", emojiPresentation), ("extpict", extendedPictographic),
   ("extendedpictographic", extendedPictographic), ("ext", extender), ("extender", extender),
   ("grbase", graphemeBase), ("graphemebase", graphemeBase), ("grext", graphemeExtend),
   ("graphemeextend", graphemeExtend), ("hex", hexDigit), ("hexdigit", hexDigit),
   ("idsb", idsBinaryOperator), ("idsbinaryoperator", idsBinaryOperator),
   ("idst", idsTrinaryOperator), ("idstrinaryoperator", idsTrinaryOperator),
   ("idc", idContinue), ("idcontinue", idContinue), ("ids", idStart), ("idstart", idStart),
   ("ideo", ideographic), ("ideographic", ideographic), ("joinc", joinControl),
   ("joincontrol", joinControl), ("loe", logicalOrderException),
   ("logicalorderexception", logicalOrderException), ("lower", lowercase),
   ("lowercase", lowercase), ("math", math), ("nchar", noncharacter),
   ("noncharactercodepoint", noncharacter), ("patsyn", patternSyntax),
   ("patternsyntax", patternSyntax), ("patws", patternBlank),
   ("patternwhitespace", patternBlank), ("qmark", quotationMark),
   ("quotationmark", quotationMark), ("radical", radical), ("ri", regionalIndicator),
   ("regionalindicator", regionalIndicator), ("sterm", sentenceTerminal),
   ("sentenceterminal", sentenceTerminal), ("sd", softDotted), ("softdotted", softDotted),
   ("term", terminalPunctuation), ("terminalpunctuation", terminalPunctuation),
   ("uideo", unifiedIdeograph), ("unifiedideograph", unifiedIdeograph), ("upper", uppercase),
   ("uppercase", uppercase), ("vs", variationSelector),
   ("variationselector", variationSelector), ("wspace", .blank), ("whitespace", .blank),
   ("space", .blank), ("xidc", xidContinue), ("xidcontinue", xidContinue), ("xids", xidStart),
   ("xidstart", xidStart)]

end Verdict.Property
