import Verdict.Text.CaseRun

namespace Verdict.Fold

/-- Sends every character to the least one that differs from it only in case. -/
def runs : List CaseRun := CaseRun.ofCoded
  ["2p q 1 1t 68 n 1 5c 6w 7 1 60 75 o 2 74 8j 3 2 8i 8q 8 2 8p 97 n 2 96 ag 1 1 73 ai 3 2 ah",
   "an 1 1 2b ar 2 2 aq aw 1 1 av b0 1 1 az b6 1 1 b5 bd 1 1 bc bl 3 2 bk bs 1 1 br bx 1 1 bw",
   "c0 1 1 bz c4 2 2 c3 c9 1 1 c8 cd 1 1 cc cl 1 1 ck cm 1 1 ck co 1 1 cn cp 1 1 cn cr 1 1 cq",
   "cs 1 1 cq cu 8 2 ct d9 1 1 b2 db 9 2 da du 1 1 dt dv 1 1 dt dx 1 1 dw dy 1 1 b9 dz 1 1 cf",
   "e1 k 2 e0 f4 1 1 bi f7 9 2 f6 fw 1 1 fv fx 1 1 be g2 1 1 g1 g3 1 1 ao g7 5 2 g6 gj 1 1 ap",
   "gk 1 1 au gm 2 1 ax gp 1 1 b3 gr 1 1 b4 gw 1 1 b7 gz 1 1 b8 h4 1 1 bb h5 1 1 ba hb 1 1 bg",
   "he 1 1 bh hh 1 1 bj hs 1 1 bq hv 1 1 bt i0 1 1 by i1 1 1 g4 i2 2 1 c1 i4 1 1 g5 ia 1 1 c7",
   "oh 2 2 og on 1 1 om pl 1 1 n9 po 1 1 51 q4 1 1 p2 q5 3 1 p4 q9 8 1 pd qh 1 1 n9 qi 2 1 pm",
   "qk 1 1 51 ql 5 1 pp qq 1 1 pv qr 9 1 pv r0 1 1 p8 r1 2 1 pa r4 1 1 pe r5 1 1 pk r9 1 1 py",
   "ra 1 1 ps rb 1 1 r3 rd c 2 rc s0 1 1 pm s1 1 1 pt s3 1 1 ov s4 1 1 pk s5 1 1 ph s8 1 1 s7",
   "s9 1 1 s2 sb 1 1 sa sd 3 1 or ts w 1 sw uo g 1 sg v5 h 2 v4 wb r 2 wa xu 7 2 xt y7 1 1 xs",
   "y9 1c 2 y8 129 12 1 10x 3y0 6 1 3xs 5mo 1 1 sy 5mp 1 1 t0 5mq 1 1 ta 5mr 2 1 td 5mt 1 1 te",
   "5mu 1 1 tm 5mv 1 1 v6 5my 1 1 5mx 5n4 17 1 3bk 5od 3 1 3ct 5xd 23 2 5xc 61n 1 1 600",
   "61q 1 1 67 61t 1c 2 61s 64o 8 1 64g 654 6 1 64w 65k 8 1 65c 660 8 1 65s 66g 6 1 668",
   "66x 4 2 66p 67c 8 1 674 688 8 1 680 68o 8 1 68g 694 8 1 68w 69k 2 1 69c 69m 2 1 67k",
   "69o 1 1 69f 69q 1 1 n9 6a0 4 1 67m 6a4 1 1 69v 6ab 1 1 pc 6ag 2 1 6a8 6ai 2 1 67q 6ar 1 1 q8",
   "6aw 2 1 6ao 6ay 2 1 67u 6b0 1 1 6at 6bc 2 1 67s 6be 2 1 67w 6bg 1 1 6b7 6jq 1 1 q1",
   "6ju 1 1 23 6jv 1 1 5h 6ku 1 1 6k2 6ls g 1 6lc 6mc 1 1 6mb 79s q 1 792 8q8 1c 1 8ow",
   "8rl 1 1 8rk 8rm 1 1 h7 8rn 1 1 5tp 8ro 1 1 hp 8rp 1 1 fu 8rq 1 1 fy 8rs 3 2 8rr 8rx 1 1 gh",
   "8ry 1 1 hd 8rz 1 1 gg 8s0 1 1 gi 8s3 1 1 8s2 8s6 1 1 8s5 8se 2 1 fz 8sh 1e 2 8sg 8vg 2 2 8vf",
   "8vn 1 1 8vm 8w0 12 1 3a8 8x3 1 1 3bb 8x9 1 1 3bh wu9 5 2 wu8 wui 1 1 5mw wuj 1 1 5mw",
   "wul h 2 wuk ww1 e 2 ww0 x0j 7 2 x0i x0z v 2 x0y x2y 2 2 x2x x31 1 1 5tl x33 5 2 x32",
   "x3g 1 1 x3f x3h 1 1 h1 x3l 2 2 x3k x3r a 2 x3q x4a 1 1 h2 x4b 1 1 gs x4c 1 1 gx x4d 1 1 h8",
   "x4e 1 1 h6 x4g 1 1 im x4h 1 1 hz x4i 1 1 il x4l 8 2 x4k x50 1 1 x3o x51 1 1 hu x52 1 1 5u6",
   "x54 2 2 x53 x57 1 1 h0 x59 8 2 x58 x5o 1 1 bf x6e 1 1 x6d xub 1 1 x4j xv4 28 1 3vk",
   "1dl2 1 1 1dl1 1ef5 q 1 1ee9 1fe0 14 1 1fcw 1fiw 10 1 1fhs 1fo7 b 1 1fn4 1foj f 1 1fng",
   "1foz 7 1 1fnw 1fp7 2 1 1fo4 1h34 1f 1 1h1c 1h80 m 1 1h74 1jgg w 1 1jfk 20dc w 1 20cg",
   "20fv p 1 20f4 2oma y 1 2olc"]

/-- The least character that differs from `c` only in case. -/
def least (c : Char) : Char :=
  ((runs.findSome? fun r => r.image? c.toNat).map Char.ofNat).getD c

/-- The ASCII letters that differ from `c` only in case, and `c`. -/
def asciiOrbit (c : Char) : List Char :=
  if c.isLower then [c, c.toUpper] else if c.isUpper then [c, c.toLower] else [c]

/-- The characters that differ from `c` only in case, `c` among them. Beside their two ASCII cases,
`k` and `s` have a third form each: the Kelvin sign and the long s. -/
def orbit (c : Char) : List Char :=
  if c.toNat < 128 then
    if c = 'k' ∨ c = 'K' then ['k', 'K', '\u212a']
    else if c = 's' ∨ c = 'S' then ['s', 'S', '\u017f']
    else asciiOrbit c
  else
    let r := least c
    r :: runs.filterMap fun run => (run.source? r.toNat).map Char.ofNat

end Verdict.Fold
