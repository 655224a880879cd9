import Verdict.Text.CaseRun
import Verdict.Text.Property

namespace Verdict

namespace CaseMap

/-- The characters with an upper case of one other character. -/
def upperRuns : List CaseRun := CaseRun.ofCoded
  ["2p q 1 1t 51 1 1 po 68 n 1 5c 6w 7 1 60 73 1 1 ag 75 o 2 74 8h 1 1 21 8j 3 2 8i 8q 8 2 8p",
   "97 n 2 96 ai 3 2 ah an 1 1 2b ao 1 1 g3 ar 2 2 aq aw 1 1 av b0 1 1 az b6 1 1 b5 b9 1 1 dy",
   "bd 1 1 bc be 1 1 fx bf 1 1 x5o bi 1 1 f4 bl 3 2 bk bs 1 1 br bx 1 1 bw c0 1 1 bz c4 2 2 c3",
   "c9 1 1 c8 cd 1 1 cc cf 1 1 dz cl 1 1 ck cm 1 1 ck co 1 1 cn cp 1 1 cn cr 1 1 cq cs 1 1 cq",
   "cu 8 2 ct d9 1 1 b2 db 9 2 da du 1 1 dt dv 1 1 dt dx 1 1 dw e1 k 2 e0 f7 9 2 f6 fw 1 1 fv",
   "fz 2 1 8se g2 1 1 g1 g7 5 2 g6 gg 1 1 8rz gh 1 1 8rx gi 1 1 8s0 gj 1 1 ap gk 1 1 au",
   "gm 2 1 ax gp 1 1 b3 gr 1 1 b4 gs 1 1 x4b gw 1 1 b7 gx 1 1 x4c gz 1 1 b8 h0 1 1 x57",
   "h1 1 1 x3h h2 1 1 x4a h4 1 1 bb h5 1 1 ba h6 1 1 x4e h7 1 1 8rm h8 1 1 x4d hb 1 1 bg",
   "hd 1 1 8ry he 1 1 bh hh 1 1 bj hp 1 1 8ro hs 1 1 bq hu 1 1 x51 hv 1 1 bt hz 1 1 x4h",
   "i0 1 1 by i1 1 1 g4 i2 2 1 c1 i4 1 1 g5 ia 1 1 c7 il 1 1 x4i im 1 1 x4g n9 1 1 pl oh 2 2 og",
   "on 1 1 om or 3 1 sd q4 1 1 p2 q5 3 1 p4 q9 h 1 pd qq 1 1 pv qr 9 1 pv r0 1 1 p8 r1 2 1 pa",
   "r4 1 1 pe r5 1 1 pk r9 1 1 py ra 1 1 ps rb 1 1 r3 rd c 2 rc s0 1 1 pm s1 1 1 pt s2 1 1 s9",
   "s3 1 1 ov s5 1 1 ph s8 1 1 s7 sb 1 1 sa ts w 1 sw uo g 1 sg v5 h 2 v4 wb r 2 wa xu 7 2 xt",
   "y7 1 1 xs y9 1c 2 y8 129 12 1 10x 3bk 17 1 5n4 3ct 3 1 5od 3y0 6 1 3xs 5mo 1 1 sy 5mp 1 1 t0",
   "5mq 1 1 ta 5mr 2 1 td 5mt 1 1 te 5mu 1 1 tm 5mv 1 1 v6 5mw 1 1 wui 5my 1 1 5mx 5tl 1 1 x31",
   "5tp 1 1 8rn 5u6 1 1 x52 5xd 23 2 5xc 61n 1 1 600 61t 1c 2 61s 64g 8 1 64o 64w 6 1 654",
   "65c 8 1 65k 65s 8 1 660 668 6 1 66g 66p 4 2 66x 674 8 1 67c 67k 2 1 69m 67m 4 1 6a0",
   "67q 2 1 6ai 67s 2 1 6bc 67u 2 1 6ay 67w 2 1 6be 69c 2 1 69k 69q 1 1 pl 6a8 2 1 6ag",
   "6ao 2 1 6aw 6at 1 1 6b0 6ku 1 1 6k2 6ls g 1 6lc 6mc 1 1 6mb 79s q 1 792 8q8 1c 1 8ow",
   "8rl 1 1 8rk 8rp 1 1 fu 8rq 1 1 fy 8rs 3 2 8rr 8s3 1 1 8s2 8s6 1 1 8s5 8sh 1e 2 8sg",
   "8vg 2 2 8vf 8vn 1 1 8vm 8w0 12 1 3a8 8x3 1 1 3bb 8x9 1 1 3bh wu9 n 2 wu8 ww1 e 2 ww0",
   "x0j 7 2 x0i x0z v 2 x0y x2y 2 2 x2x x33 5 2 x32 x3g 1 1 x3f x3l 2 2 x3k x3o 1 1 x50",
   "x3r a 2 x3q x4l 8 2 x4k x54 2 2 x53 x59 8 2 x58 x6e 1 1 x6d xub 1 1 x4j xv4 28 1 3vk",
   "1ef5 q 1 1ee9 1fe0 14 1 1fcw 1fiw 10 1 1fhs 1fo7 b 1 1fn4 1foj f 1 1fng 1foz 7 1 1fnw",
   "1fp7 2 1 1fo4 1h34 1f 1 1h1c 1h80 m 1 1h74 1jgg w 1 1jfk 20dc w 1 20cg 20fv p 1 20f4",
   "2oma y 1 2olc"]

/-- The characters with a lower case of one other character. -/
def lowerRuns : List CaseRun := CaseRun.ofCoded
  ["1t q 1 2p 5c n 1 68 60 7 1 6w 74 o 2 75 8i 3 2 8j 8p 8 2 8q 96 n 2 97 ag 1 1 73 ah 3 2 ai",
   "ap 1 1 gj aq 2 2 ar au 1 1 gk av 1 1 aw ax 2 1 gm az 1 1 b0 b2 1 1 d9 b3 1 1 gp b4 1 1 gr",
   "b5 1 1 b6 b7 1 1 gw b8 1 1 gz ba 1 1 h5 bb 1 1 h4 bc 1 1 bd bg 1 1 hb bh 1 1 he bj 1 1 hh",
   "bk 3 2 bl bq 1 1 hs br 1 1 bs bt 1 1 hv bw 1 1 bx by 1 1 i0 bz 1 1 c0 c1 2 1 i2 c3 2 2 c4",
   "c7 1 1 ia c8 1 1 c9 cc 1 1 cd ck 1 1 cm cl 1 1 cm cn 1 1 cp co 1 1 cp cq 1 1 cs cr 9 2 cs",
   "da 9 2 db dt 1 1 dv du 2 2 dv dy 1 1 b9 dz 1 1 cf e0 k 2 e1 f4 1 1 bi f6 9 2 f7 fu 1 1 8rp",
   "fv 1 1 fw fx 1 1 be fy 1 1 8rq g1 1 1 g2 g3 1 1 ao g4 1 1 i1 g5 1 1 i4 g6 5 2 g7 og 2 2 oh",
   "om 1 1 on ov 1 1 s3 p2 1 1 q4 p4 3 1 q5 p8 1 1 r0 pa 2 1 r1 pd h 1 q9 pv 9 1 qr r3 1 1 rb",
   "rc c 2 rd s4 1 1 qg s7 1 1 s8 s9 1 1 s2 sa 1 1 sb sd 3 1 or sg g 1 uo sw w 1 ts v4 h 2 v5",
   "wa r 2 wb xs 1 1 y7 xt 7 2 xu y8 1c 2 y9 10x 12 1 129 3a8 12 1 8w0 3bb 1 1 8x3 3bh 1 1 8x9",
   "3vk 28 1 xv4 3xs 6 1 3y0 5mx 1 1 5my 5n4 17 1 3bk 5od 3 1 3ct 5xc 23 2 5xd 61q 1 1 67",
   "61s 1c 2 61t 64o 8 1 64g 654 6 1 64w 65k 8 1 65c 660 8 1 65s 66g 6 1 668 66x 4 2 66p",
   "67c 8 1 674 688 8 1 680 68o 8 1 68g 694 8 1 68w 69k 2 1 69c 69m 2 1 67k 69o 1 1 69f",
   "6a0 4 1 67m 6a4 1 1 69v 6ag 2 1 6a8 6ai 2 1 67q 6aw 2 1 6ao 6ay 2 1 67u 6b0 1 1 6at",
   "6bc 2 1 67s 6be 2 1 67w 6bg 1 1 6b7 6jq 1 1 qx 6ju 1 1 2z 6jv 1 1 6d 6k2 1 1 6ku 6lc g 1 6ls",
   "6mb 1 1 6mc 792 q 1 79s 8ow 1c 1 8q8 8rk 1 1 8rl 8rm 1 1 h7 8rn 1 1 5tp 8ro 1 1 hp",
   "8rr 3 2 8rs 8rx 1 1 gh 8ry 1 1 hd 8rz 1 1 gg 8s0 1 1 gi 8s2 1 1 8s3 8s5 1 1 8s6 8se 2 1 fz",
   "8sg 1e 2 8sh 8vf 2 2 8vg 8vm 1 1 8vn wu8 n 2 wu9 ww0 e 2 ww1 x0i 7 2 x0j x0y v 2 x0z",
   "x2x 2 2 x2y x31 1 1 5tl x32 5 2 x33 x3f 1 1 x3g x3h 1 1 h1 x3k 2 2 x3l x3q a 2 x3r",
   "x4a 1 1 h2 x4b 1 1 gs x4c 1 1 gx x4d 1 1 h8 x4e 1 1 h6 x4g 1 1 im x4h 1 1 hz x4i 1 1 il",
   "x4j 1 1 xub x4k 8 2 x4l x50 1 1 x3o x51 1 1 hu x52 1 1 5u6 x53 2 2 x54 x57 1 1 h0",
   "x58 8 2 x59 x5o 1 1 bf x6d 1 1 x6e 1ee9 q 1 1ef5 1fcw 14 1 1fe0 1fhs 10 1 1fiw 1fn4 b 1 1fo7",
   "1fng f 1 1foj 1fnw 7 1 1foz 1fo4 2 1 1fp7 1h1c 1f 1 1h34 1h74 m 1 1h80 1jfk w 1 1jgg",
   "20cg w 1 20dc 20f4 p 1 20fv 2olc y 1 2oma"]

/-- The characters with an upper case of several characters: `ß` becomes `SS`. -/
def longUpper : List (Char × String) :=
  [('\u00df', "\u0053\u0053"), ('\u0149', "\u02bc\u004e"), ('\u01f0', "\u004a\u030c"),
   ('\u0390', "\u0399\u0308\u0301"), ('\u03b0', "\u03a5\u0308\u0301"),
   ('\u0587', "\u0535\u0552"), ('\u1e96', "\u0048\u0331"), ('\u1e97', "\u0054\u0308"),
   ('\u1e98', "\u0057\u030a"), ('\u1e99', "\u0059\u030a"), ('\u1e9a', "\u0041\u02be"),
   ('\u1f50', "\u03a5\u0313"), ('\u1f52', "\u03a5\u0313\u0300"),
   ('\u1f54', "\u03a5\u0313\u0301"), ('\u1f56', "\u03a5\u0313\u0342"),
   ('\u1f80', "\u1f08\u0399"), ('\u1f81', "\u1f09\u0399"), ('\u1f82', "\u1f0a\u0399"),
   ('\u1f83', "\u1f0b\u0399"), ('\u1f84', "\u1f0c\u0399"), ('\u1f85', "\u1f0d\u0399"),
   ('\u1f86', "\u1f0e\u0399"), ('\u1f87', "\u1f0f\u0399"), ('\u1f88', "\u1f08\u0399"),
   ('\u1f89', "\u1f09\u0399"), ('\u1f8a', "\u1f0a\u0399"), ('\u1f8b', "\u1f0b\u0399"),
   ('\u1f8c', "\u1f0c\u0399"), ('\u1f8d', "\u1f0d\u0399"), ('\u1f8e', "\u1f0e\u0399"),
   ('\u1f8f', "\u1f0f\u0399"), ('\u1f90', "\u1f28\u0399"), ('\u1f91', "\u1f29\u0399"),
   ('\u1f92', "\u1f2a\u0399"), ('\u1f93', "\u1f2b\u0399"), ('\u1f94', "\u1f2c\u0399"),
   ('\u1f95', "\u1f2d\u0399"), ('\u1f96', "\u1f2e\u0399"), ('\u1f97', "\u1f2f\u0399"),
   ('\u1f98', "\u1f28\u0399"), ('\u1f99', "\u1f29\u0399"), ('\u1f9a', "\u1f2a\u0399"),
   ('\u1f9b', "\u1f2b\u0399"), ('\u1f9c', "\u1f2c\u0399"), ('\u1f9d', "\u1f2d\u0399"),
   ('\u1f9e', "\u1f2e\u0399"), ('\u1f9f', "\u1f2f\u0399"), ('\u1fa0', "\u1f68\u0399"),
   ('\u1fa1', "\u1f69\u0399"), ('\u1fa2', "\u1f6a\u0399"), ('\u1fa3', "\u1f6b\u0399"),
   ('\u1fa4', "\u1f6c\u0399"), ('\u1fa5', "\u1f6d\u0399"), ('\u1fa6', "\u1f6e\u0399"),
   ('\u1fa7', "\u1f6f\u0399"), ('\u1fa8', "\u1f68\u0399"), ('\u1fa9', "\u1f69\u0399"),
   ('\u1faa', "\u1f6a\u0399"), ('\u1fab', "\u1f6b\u0399"), ('\u1fac', "\u1f6c\u0399"),
   ('\u1fad', "\u1f6d\u0399"), ('\u1fae', "\u1f6e\u0399"), ('\u1faf', "\u1f6f\u0399"),
   ('\u1fb2', "\u1fba\u0399"), ('\u1fb3', "\u0391\u0399"), ('\u1fb4', "\u0386\u0399"),
   ('\u1fb6', "\u0391\u0342"), ('\u1fb7', "\u0391\u0342\u0399"), ('\u1fbc', "\u0391\u0399"),
   ('\u1fc2', "\u1fca\u0399"), ('\u1fc3', "\u0397\u0399"), ('\u1fc4', "\u0389\u0399"),
   ('\u1fc6', "\u0397\u0342"), ('\u1fc7', "\u0397\u0342\u0399"), ('\u1fcc', "\u0397\u0399"),
   ('\u1fd2', "\u0399\u0308\u0300"), ('\u1fd3', "\u0399\u0308\u0301"),
   ('\u1fd6', "\u0399\u0342"), ('\u1fd7', "\u0399\u0308\u0342"),
   ('\u1fe2', "\u03a5\u0308\u0300"), ('\u1fe3', "\u03a5\u0308\u0301"),
   ('\u1fe4', "\u03a1\u0313"), ('\u1fe6', "\u03a5\u0342"), ('\u1fe7', "\u03a5\u0308\u0342"),
   ('\u1ff2', "\u1ffa\u0399"), ('\u1ff3', "\u03a9\u0399"), ('\u1ff4', "\u038f\u0399"),
   ('\u1ff6', "\u03a9\u0342"), ('\u1ff7', "\u03a9\u0342\u0399"), ('\u1ffc', "\u03a9\u0399"),
   ('\ufb00', "\u0046\u0046"), ('\ufb01', "\u0046\u0049"), ('\ufb02', "\u0046\u004c"),
   ('\ufb03', "\u0046\u0046\u0049"), ('\ufb04', "\u0046\u0046\u004c"),
   ('\ufb05', "\u0053\u0054"), ('\ufb06', "\u0053\u0054"), ('\ufb13', "\u0544\u0546"),
   ('\ufb14', "\u0544\u0535"), ('\ufb15', "\u0544\u053b"), ('\ufb16', "\u054e\u0546"),
   ('\ufb17', "\u0544\u053d")]

/-- The character that a table of runs sends `c` to, itself if no run does. -/
def image (runs : List CaseRun) (c : Char) : Char :=
  ((runs.findSome? fun r => r.image? c.toNat).map Char.ofNat).getD c

def upperChar (c : Char) : List Char :=
  if c.toNat < 128 then [c.toUpper]
  else match longUpper.lookup c with
    | some s => s.toList
    | none => [image upperRuns c]

/-- The lower case of a character that is not at the end of a word. -/
def lowerChar (c : Char) : List Char :=
  if c.toNat < 128 then [c.toLower]
  else if c = '\u0130' then ['i', '\u0307']
  else [image lowerRuns c]

/-- Whether the first character that is not ignored by casing is a cased one. -/
def casedAhead (s : List Char) : Bool :=
  match s.dropWhile Property.caseIgnorable.contains with
  | c :: _ => Property.cased.contains c
  | [] => false

def upper (s : List Char) : List Char :=
  s.flatMap upperChar

/-- Continues the lower case of a text, where `before` is what has been read and `done` what has
been written, both last character first. A capital sigma ends a word when a cased character
precedes it and none follows. -/
def lowerAfter (before done : List Char) : List Char → List Char
  | [] => done.reverse
  | 'Σ' :: rest =>
    let sigma := if casedAhead before && !casedAhead rest then 'ς' else 'σ'
    lowerAfter ('Σ' :: before) (sigma :: done) rest
  | c :: rest => lowerAfter (c :: before) ((lowerChar c).reverse ++ done) rest

def lower (s : List Char) : List Char :=
  lowerAfter [] [] s

end CaseMap

def upperText (s : String) : String :=
  String.ofList (CaseMap.upper s.toList)

end Verdict
