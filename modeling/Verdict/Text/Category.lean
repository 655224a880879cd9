import Verdict.Text.Runs

namespace Verdict

/-- The values of the Unicode property General_Category. -/
inductive Category where
  | uppercaseLetter
  | lowercaseLetter
  | titlecaseLetter
  | modifierLetter
  | otherLetter
  | nonspacingMark
  | spacingMark
  | enclosingMark
  | decimalNumber
  | letterNumber
  | otherNumber
  | connectorPunctuation
  | dashPunctuation
  | openPunctuation
  | closePunctuation
  | initialPunctuation
  | finalPunctuation
  | otherPunctuation
  | mathSymbol
  | currencySymbol
  | modifierSymbol
  | otherSymbol
  | spaceSeparator
  | lineSeparator
  | paragraphSeparator
  | control
  | format
  | surrogate
  | privateUse
  | unassigned
  deriving DecidableEq, Repr

namespace Category

def code : Category → String
  | uppercaseLetter => "Lu"
  | lowercaseLetter => "Ll"
  | titlecaseLetter => "Lt"
  | modifierLetter => "Lm"
  | otherLetter => "Lo"
  | nonspacingMark => "Mn"
  | spacingMark => "Mc"
  | enclosingMark => "Me"
  | decimalNumber => "Nd"
  | letterNumber => "Nl"
  | otherNumber => "No"
  | connectorPunctuation => "Pc"
  | dashPunctuation => "Pd"
  | openPunctuation => "Ps"
  | closePunctuation => "Pe"
  | initialPunctuation => "Pi"
  | finalPunctuation => "Pf"
  | otherPunctuation => "Po"
  | mathSymbol => "Sm"
  | currencySymbol => "Sc"
  | modifierSymbol => "Sk"
  | otherSymbol => "So"
  | spaceSeparator => "Zs"
  | lineSeparator => "Zl"
  | paragraphSeparator => "Zp"
  | control => "Cc"
  | format => "Cf"
  | surrogate => "Cs"
  | privateUse => "Co"
  | unassigned => "Cn"

def all : List Category :=
  [uppercaseLetter, lowercaseLetter, titlecaseLetter, modifierLetter,
   otherLetter, nonspacingMark, spacingMark, enclosingMark,
   decimalNumber, letterNumber, otherNumber, connectorPunctuation,
   dashPunctuation, openPunctuation, closePunctuation, initialPunctuation,
   finalPunctuation, otherPunctuation, mathSymbol, currencySymbol,
   modifierSymbol, otherSymbol, spaceSeparator, lineSeparator,
   paragraphSeparator, control, format, surrogate,
   privateUse, unassigned]

def ofCode? (s : String) : Option Category :=
  all.find? fun k => k.code == s

/-- What has been read of a coded table: the end of the last run, the letters and the length of the
run being read, and the starts and categories of the runs so far. -/
structure Reading where
  last : Nat
  length : Nat
  capital : Option Char
  starts : Array Nat
  kinds : Array Category

/-- Reads one character of a coded table. -/
def Reading.push (r : Reading) (c : Char) : Reading :=
  match r.capital with
  | some k =>
    { last := r.last + r.length
      length := 0
      capital := none
      starts := r.starts.push r.last
      kinds := r.kinds.push ((ofCode? (String.ofList [k, c])).getD unassigned) }
  | none =>
    if c.isUpper then { r with capital := some c }
    else { r with length := r.length * 36 + (digit? 36 c).getD 0 }

/-- The runs of equal category, from the first code point to the last. They are coded as the length
of each run in base 36, then the two letters of its category. -/
def table : Reading :=
  coded.foldl (fun r line => line.foldl Reading.push r) ⟨0, 0, none, #[], #[]⟩
where
  coded : List String :=
    ["wCc1Zs3Po1Sc3Po1Ps1Pe1Po1Sm1Po1Pd2PoaNd2Po3Sm2PoqLu1Ps1Po1Pe1Sk1Pc1SkqLl1Ps1Sm1Pe1SmxCc1Zs",
     "1Po4Sc1So1Po1Sk1So1Lo1Pi1Sm1Cf1So1Sk1So1Sm2No1Sk1Ll2Po1Sk1No1Lo1Pf3No1PonLu1Sm7LuoLl1Sm8Ll",
     "1Lu1Ll1Lu1Ll1Lu1Ll1Lu1Ll1Lu1Ll1Lu1Ll1Lu1Ll1Lu1Ll1Lu1Ll1Lu1Ll1Lu1Ll1Lu1Ll1Lu1Ll1Lu1Ll1Lu1Ll",
     "1Lu1Ll1Lu1Ll1Lu1Ll1Lu1Ll1Lu1Ll1Lu1Ll1Lu1Ll1Lu1Ll1Lu1Ll1Lu1Ll1Lu1Ll1Lu1Ll1Lu2Ll1Lu1Ll1Lu1Ll",
     "1Lu1Ll1Lu1Ll1Lu1Ll1Lu1Ll1Lu1Ll1Lu2Ll1Lu1Ll1Lu1Ll1Lu1Ll1Lu1Ll1Lu1Ll1Lu1Ll1Lu1Ll1Lu1Ll1Lu1Ll",
     "1Lu1Ll1Lu1Ll1Lu1Ll1Lu1Ll1Lu1Ll1Lu1Ll1Lu1Ll1Lu1Ll1Lu1Ll1Lu1Ll1Lu1Ll1Lu1Ll1Lu1Ll1Lu1Ll2Lu1Ll",
     "1Lu1Ll1Lu3Ll2Lu1Ll1Lu1Ll2Lu1Ll3Lu2Ll4Lu1Ll2Lu1Ll3Lu3Ll2Lu1Ll2Lu1Ll1Lu1Ll1Lu1Ll2Lu1Ll1Lu2Ll",
     "1Lu1Ll2Lu1Ll3Lu1Ll1Lu1Ll2Lu2Ll1Lo1Lu3Ll4Lo1Lu1Lt1Ll1Lu1Lt1Ll1Lu1Lt1Ll1Lu1Ll1Lu1Ll1Lu1Ll1Lu",
     "1Ll1Lu1Ll1Lu1Ll1Lu1Ll1Lu2Ll1Lu1Ll1Lu1Ll1Lu1Ll1Lu1Ll1Lu1Ll1Lu1Ll1Lu1Ll1Lu1Ll1Lu2Ll1Lu1Lt1Ll",
     "1Lu1Ll3Lu1Ll1Lu1Ll1Lu1Ll1Lu1Ll1Lu1Ll1Lu1Ll1Lu1Ll1Lu1Ll1Lu1Ll1Lu1Ll1Lu1Ll1Lu1Ll1Lu1Ll1Lu1Ll",
     "1Lu1Ll1Lu1Ll1Lu1Ll1Lu1Ll1Lu1Ll1Lu1Ll1Lu1Ll1Lu1Ll1Lu1Ll1Lu1Ll1Lu1Ll1Lu1Ll1Lu1Ll1Lu1Ll1Lu1Ll",
     "1Lu7Ll2Lu1Ll2Lu2Ll1Lu1Ll4Lu1Ll1Lu1Ll1Lu1Ll1Lu1Ll1Lu1xLl2LoqLliLm4SkcLmeSk5Lm7Sk1Lm1Sk1LmhSk",
     "34Mn1Lu1Ll1Lu1Ll1Lm1Sk1Lu1Ll2Cn1Lm3Ll1Po1Lu4Cn2Sk1Lu1Po3Lu1Cn1Lu1Cn2Lu1LlhLu1Cn9LuzLl1Lu2Ll",
     "3Lu3Ll1Lu1Ll1Lu1Ll1Lu1Ll1Lu1Ll1Lu1Ll1Lu1Ll1Lu1Ll1Lu1Ll1Lu1Ll1Lu1Ll1Lu1Ll1Lu5Ll1Lu1Ll1Sm1Lu",
     "1Ll2Lu2Ll1fLu1cLl1Lu1Ll1Lu1Ll1Lu1Ll1Lu1Ll1Lu1Ll1Lu1Ll1Lu1Ll1Lu1Ll1Lu1Ll1Lu1Ll1Lu1Ll1Lu1Ll1Lu",
     "1Ll1Lu1Ll1Lu1Ll1Lu1Ll1Lu1Ll1So5Mn2Me1Lu1Ll1Lu1Ll1Lu1Ll1Lu1Ll1Lu1Ll1Lu1Ll1Lu1Ll1Lu1Ll1Lu1Ll",
     "1Lu1Ll1Lu1Ll1Lu1Ll1Lu1Ll1Lu1Ll1Lu1Ll1Lu1Ll1Lu1Ll1Lu1Ll1Lu1Ll1Lu1Ll1Lu1Ll1Lu1Ll1Lu1Ll1Lu1Ll",
     "1Lu1Ll1Lu1Ll1Lu1Ll2Lu1Ll1Lu1Ll1Lu1Ll1Lu1Ll1Lu1Ll1Lu1Ll1Lu2Ll1Lu1Ll1Lu1Ll1Lu1Ll1Lu1Ll1Lu1Ll",
     "1Lu1Ll1Lu1Ll1Lu1Ll1Lu1Ll1Lu1Ll1Lu1Ll1Lu1Ll1Lu1Ll1Lu1Ll1Lu1Ll1Lu1Ll1Lu1Ll1Lu1Ll1Lu1Ll1Lu1Ll",
     "1Lu1Ll1Lu1Ll1Lu1Ll1Lu1Ll1Lu1Ll1Lu1Ll1Lu1Ll1Lu1Ll1Lu1Ll1Lu1Ll1Lu1Ll1Lu1Ll1Lu1Ll1Lu1Ll1Lu1Ll",
     "1Lu1Ll1Lu1Ll1Lu1Ll1Lu1Ll1Lu1Ll1Lu1Ll1Lu1Ll1Lu1Ll1Lu1Ll1Lu1Ll1Lu1Ll1Lu1Ll1Lu1Ll1Cn12Lu2Cn1Lm",
     "6Po15Ll1Po1Pd2Cn2So1Sc1Cn19Mn1Pd1Mn1Po2Mn1Po2Mn1Po1Mn8CnrLo4Cn4Lo2PobCn6Cf3Sm2Po1Sc2Po2SobMn",
     "1Po1Cf3PowLo1LmaLolMnaNd4Po2Lo1Mn2rLo1Po1Lo7Mn1Cf1So6Mn2Lm2Mn1So4Mn2LoaNd3Lo2So1LoePo1Cn1Cf",
     "1Lo1MnuLorMn2Cn2hLobMn1LoeCnaNdxLo9Mn2Lm1So3Po1Lm2Cn1Mn2ScmLo4Mn1Lm9Mn1Lm3Mn1Lm5Mn2CnfPo1Cn",
     "pLo3Mn2Cn1Po1CnbLo5CnoLo1Sk7Lo2Cf5Cn9Mn15Lo1LmoMn1CfwMn1Mc1iLo1Mn1Mc1Mn1Lo3Mc8Mn4Mc1Mn2Mc1Lo",
     "7MnaLo2Mn2PoaNd1Po1LmfLo1Mn2Mc1Cn8Lo2Cn2Lo2CnmLo1Cn7Lo1Cn1Lo3Cn4Lo2Cn1Mn1Lo3Mc4Mn2Cn2Mc2Cn",
     "2Mc1Mn1Lo8Cn1Mc4Cn2Lo1Cn3Lo2Mn2CnaNd2Lo2Sc6No1So1Sc1Lo1Po1Mn2Cn2Mn1Mc1Cn6Lo4Cn2Lo2CnmLo1Cn",
     "7Lo1Cn2Lo1Cn2Lo1Cn2Lo2Cn1Mn1Cn3Mc2Mn4Cn2Mn2Cn3Mn3Cn1Mn7Cn4Lo1Cn1Lo7CnaNd2Mn3Lo1Mn1PoaCn2Mn",
     "1Mc1Cn9Lo1Cn3Lo1CnmLo1Cn7Lo1Cn2Lo1Cn5Lo2Cn1Mn1Lo3Mc5Mn1Cn2Mn1Mc1Cn2Mc1Mn2Cn1LofCn2Lo2Mn2Cn",
     "aNd1Po1Sc7Cn1Lo6Mn1Cn1Mn2Mc1Cn8Lo2Cn2Lo2CnmLo1Cn7Lo1Cn2Lo1Cn5Lo2Cn1Mn1Lo1Mc1Mn1Mc4Mn2Cn2Mc",
     "2Cn2Mc1Mn7Cn2Mn1Mc4Cn2Lo1Cn3Lo2Mn2CnaNd1So1Lo6NoaCn1Mn1Lo1Cn6Lo3Cn3Lo1Cn4Lo3Cn2Lo1Cn1Lo1Cn",
     "2Lo3Cn2Lo3Cn3Lo3CncLo4Cn2Mc1Mn2Mc3Cn3Mc1Cn3Mc1Mn2Cn1Lo6Cn1MceCnaNd3No6So1Sc1So5Cn1Mn3Mc1Mn",
     "8Lo1Cn3Lo1CnnLo1CngLo2Cn1Mn1Lo3Mn4Mc1Cn3Mn1Cn4Mn7Cn2Mn1Cn3Lo1Cn2Lo2Cn2Lo2Mn2CnaNd7Cn1Po7No",
     "1So1Lo1Mn2Mc1Po8Lo1Cn3Lo1CnnLo1CnaLo1Cn5Lo2Cn1Mn1Lo1Mc1Mn5Mc1Cn1Mn2Mc1Cn2Mc2Mn7Cn2Mc5Cn3Lo",
     "1Cn2Lo2Mn2CnaNd1Cn2Lo1MccCn2Mn2Mc9Lo1Cn3Lo1Cn15Lo2Mn1Lo3Mc4Mn1Cn3Mc1Cn3Mc1Mn1Lo1So4Cn3Lo1Mc",
     "7No3Lo2Mn2CnaNd9No1So6Lo1Cn1Mn2Mc1CniLo3CnoLo1Cn9Lo1Cn1Lo2Cn7Lo3Cn1Mn4Cn3Mc3Mn1Cn1Mn1Cn8Mc",
     "6CnaNd2Cn2Mc1PocCn1cLo1Mn2Lo7Mn4Cn1Sc6Lo1Lm8Mn1PoaNd2Po11Cn2Lo1Cn1Lo1Cn5Lo1CnoLo1Cn1Lo1CnaLo",
     "1Mn2Lo9Mn1Lo2Cn5Lo1Cn1Lm1Cn7Mn1CnaNd2Cn4LowCn1Lo3SofPo1So1Po3So2Mn6SoaNdaNo1So1Mn1So1Mn1So",
     "1Mn1Ps1Pe1Ps1Pe2Mc8Lo1Cn10Lo4CneMn1Mc5Mn1Po2Mn5LobMn1Cn10Mn1Cn8So1Mn6So1Cn2So5Po4So2Po11Cn",
     "17Lo2Mc4Mn1Mc6Mn1Mc2Mn2Mc2Mn1LoaNd6Po6Lo2Mc2Mn4Lo3Mn1Lo3Mc2Lo7Mc3Lo4MndLo1Mn2Mc2Mn6Mc1Mn1Lo",
     "1McaNd3Mc1Mn2So12Lu1Cn1Lu5Cn1Lu2Cn17Ll1Po1Lm3Ll95Lo1Cn4Lo2Cn7Lo1Cn1Lo1Cn4Lo2Cn15Lo1Cn4Lo2Cn",
     "xLo1Cn4Lo2Cn7Lo1Cn1Lo1Cn4Lo2CnfLo1Cn1lLo1Cn4Lo2Cn1vLo2Cn3Mn9PokNo3CngLoaSo6Cn2eLu2Cn6Ll2Cn",
     "1Pdh8Lo1So1PohLo1ZsqLo1Ps1Pe3Cn23Lo3Po3Nl8Lo7CniLo3Mn1Mc9CnjLo2Mn1Mc2Po9CniLo2MncCndLo1Cn3Lo",
     "1Cn2MncCn1gLo2Mn1Mc7Mn8Mc1Mn2McbMn3Po1Lm3Po1Sc1Lo1Mn2CnaNd6CnaNo6Cn6Po1Pd4Po3Mn1Cf1MnaNd6Cn",
     "zLo1Lm1hLo7Cn5Lo2MnyLo1Mn1Lo5Cn1yLoaCnvLo1Cn3Mn4Mc2Mn3Mc4Cn2Mc1Mn6Mc3Mn4Cn1So3Cn2PoaNduLo2Cn",
     "5LobCn18Lo4CnqLo6CnaNd1No3CnySonLo2Mn2Mc1Mn2Cn2Po1hLo1Mc1Mn1Mc7Mn1Cn1Mn1Mc1Mn2Mc8Mn6McaMn2Cn",
     "1MnaNd6CnaNd6Cn7Po1Lm6Po2CneMn1MevMn2CncMnkCn4Mn1Mc1bLo1Mn1Mc5Mn1Mc1Mn5Mc1Mn2Mc8Lo1Cn2PoaNd",
     "7PoaSo9Mn9So3Po2Mn1McuLo1Mc4Mn2Mc2Mn1Mc3Mn2LoaNd18Lo1Mn1Mc2Mn3Mc1Mn1Mc3Mn2Mc8Cn4Po10Lo8Mc8Mn",
     "2Mc2Mn3Cn5PoaNd3Cn3LoaNduLo6Lm2Po9Ll1Lu1Ll5Cn17Lu2Cn3Lu8Po8Cn3Mn1PodMn1Mc7Mn4Lo1Mn6Lo1Mn2Lo",
     "1Mc2Mn1Lo5Cn18Ll1rLmdLl1LmyLl11Lm1sMn1Lu1Ll1Lu1Ll1Lu1Ll1Lu1Ll1Lu1Ll1Lu1Ll1Lu1Ll1Lu1Ll1Lu1Ll",
     "1Lu1Ll1Lu1Ll1Lu1Ll1Lu1Ll1Lu1Ll1Lu1Ll1Lu1Ll1Lu1Ll1Lu1Ll1Lu1Ll1Lu1Ll1Lu1Ll1Lu1Ll1Lu1Ll1Lu1Ll",
     "1Lu1Ll1Lu1Ll1Lu1Ll1Lu1Ll1Lu1Ll1Lu1Ll1Lu1Ll1Lu1Ll1Lu1Ll1Lu1Ll1Lu1Ll1Lu1Ll1Lu1Ll1Lu1Ll1Lu1Ll",
     "1Lu1Ll1Lu1Ll1Lu1Ll1Lu1Ll1Lu1Ll1Lu1Ll1Lu1Ll1Lu1Ll1Lu1Ll1Lu1Ll1Lu1Ll1Lu1Ll1Lu1Ll1Lu1Ll1Lu1Ll",
     "1Lu1Ll1Lu1Ll1Lu1Ll1Lu1Ll1Lu1Ll1Lu1Ll1Lu1Ll1Lu1Ll1Lu1Ll1Lu1Ll1Lu1Ll1Lu1Ll1Lu1Ll1Lu1Ll1Lu1Ll",
     "1Lu1Ll1Lu1Ll1Lu1Ll1Lu1Ll1Lu1Ll1Lu9Ll1Lu1Ll1Lu1Ll1Lu1Ll1Lu1Ll1Lu1Ll1Lu1Ll1Lu1Ll1Lu1Ll1Lu1Ll",
     "1Lu1Ll1Lu1Ll1Lu1Ll1Lu1Ll1Lu1Ll1Lu1Ll1Lu1Ll1Lu1Ll1Lu1Ll1Lu1Ll1Lu1Ll1Lu1Ll1Lu1Ll1Lu1Ll1Lu1Ll",
     "1Lu1Ll1Lu1Ll1Lu1Ll1Lu1Ll1Lu1Ll1Lu1Ll1Lu1Ll1Lu1Ll1Lu1Ll1Lu1Ll1Lu1Ll1Lu1Ll1Lu1Ll1Lu1Ll1Lu1Ll",
     "1Lu1Ll1Lu1Ll1Lu1Ll1Lu1Ll1Lu1Ll1Lu1Ll1Lu1Ll1Lu1Ll1Lu1Ll1Lu9Ll8Lu6Ll2Cn6Lu2Cn8Ll8Lu8Ll8Lu6Ll",
     "2Cn6Lu2Cn8Ll1Cn1Lu1Cn1Lu1Cn1Lu1Cn1Lu8Ll8LueLl2Cn8Ll8Lt8Ll8Lt8Ll8Lt5Ll1Cn2Ll4Lu1Lt1Sk1Ll3Sk",
     "3Ll1Cn2Ll4Lu1Lt3Sk4Ll2Cn2Ll4Lu1Cn3Sk8Ll5Lu3Sk2Cn3Ll1Cn2Ll4Lu1Lt2Sk1CnbZs5Cf6Pd2Po1Pi1Pf1Ps",
     "2Pi1Pf1Ps1Pi8Po1Zl1Zp5Cf1Zs9Po1Pi1Pf4Po2Pc3Po1Sm1Ps1PebPo1Sm1Po1PcaPo1Zs5Cf1CnaCf1No1Lm2Cn",
     "6No3Sm1Ps1Pe1LmaNo3Sm1Ps1Pe1CndLm3CnySceCndMn4Me1Mn3MecMnfCn2So1Lu4So1Lu2So1Ll3Lu2Ll3Lu1Ll",
     "1So1Lu2So1Sm5Lu6So1Lu1So1Lu1So1Lu1So4Lu1So1Ll4Lu1Ll4Lo1Ll2So2Ll2Lu5Sm1Lu4Ll1So1Sm2So1Ll1So",
     "gNozNl1Lu1Ll4Nl1No2So4Cn5Sm5So2Sm4So1Sm2So1Sm2So1Sm7So1SmvSo2Sm2So1Sm1So1SmvSo7gSm8So1Ps1Pe",
     "1Ps1PekSo2Sm7So1Ps1Pe29So1SmuSopSm14So6Sm20SomCnbSolCn1oNo26SomNo53So1Sm9So1Sm1iSo8Sm33So1Sm",
     "6wSo1Ps1Pe1Ps1Pe1Ps1Pe1Ps1Pe1Ps1Pe1Ps1Pe1Ps1PeuNo18So5Sm1Ps1PevSm1Ps1Pe1Ps1Pe1Ps1Pe1Ps1Pe1Ps",
     "1PegSm74So3nSm1Ps1Pe1Ps1Pe1Ps1Pe1Ps1Pe1Ps1Pe1Ps1Pe1Ps1Pe1Ps1Pe1Ps1Pe1Ps1Pe1Ps1Pe1rSm1Ps1Pe",
     "1Ps1PewSm1Ps1Pe76Sm1cSolSm2So6Sm13So2Cn3uSo1cLu1cLl1Lu1Ll3Lu2Ll1Lu1Ll1Lu1Ll1Lu1Ll4Lu1Ll1Lu",
     "2Ll1Lu6Ll2Lm3Lu1Ll1Lu1Ll1Lu1Ll1Lu1Ll1Lu1Ll1Lu1Ll1Lu1Ll1Lu1Ll1Lu1Ll1Lu1Ll1Lu1Ll1Lu1Ll1Lu1Ll",
     "1Lu1Ll1Lu1Ll1Lu1Ll1Lu1Ll1Lu1Ll1Lu1Ll1Lu1Ll1Lu1Ll1Lu1Ll1Lu1Ll1Lu1Ll1Lu1Ll1Lu1Ll1Lu1Ll1Lu1Ll",
     "1Lu1Ll1Lu1Ll1Lu1Ll1Lu1Ll1Lu1Ll1Lu1Ll1Lu1Ll1Lu1Ll1Lu1Ll1Lu1Ll1Lu1Ll1Lu1Ll1Lu1Ll1Lu1Ll1Lu1Ll",
     "1Lu1Ll1Lu1Ll1Lu1Ll1Lu1Ll1Lu1Ll1Lu1Ll1Lu2Ll6So1Lu1Ll1Lu1Ll3Mn1Lu1Ll5Cn4Po1No2Po12Ll1Cn1Ll5Cn",
     "1Ll2Cn1kLo7Cn1Lm1PoeCn1MnnLo9Cn7Lo1Cn7Lo1Cn7Lo1Cn7Lo1Cn7Lo1Cn7Lo1Cn7Lo1Cn7Lo1CnwMn2Po1Pi1Pf",
     "1Pi1Pf3Po1Pi1Pf1Po1Pi1Pf9Po1Pd2Po1Pd1Po1Pi1Pf2Po1Pi1Pf1Ps1Pe1Ps1Pe1Ps1Pe1Ps1Pe5Po1LmaPo2Pd",
     "4Po1Pd1Po1PsdPo2So3Po1Ps1Pe1Ps1Pe1Ps1Pe1Ps1Pe1PdyCnqSo1Cn2hSocCn5ySoqCngSo1Zs3Po1So1Lm1Lo1Nl",
     "1Ps1Pe1Ps1Pe1Ps1Pe1Ps1Pe1Ps1Pe2So1Ps1Pe1Ps1Pe1Ps1Pe1Ps1Pe1Pd1Ps2Pe1So9Nl4Mn2Mc1Pd5Lm2So3Nl",
     "1Lm1Lo1Po2So1Cn2eLo2Cn2Mn2Sk2Lm1Lo1Pd2iLo1Po3Lm1Lo5Cn17Lo1Cn2mLo1Cn2So4NoaSowLo12So9Cn1SogLo",
     "vSo1CnaNouSo8No1SofNowSoaNo13SofNo8wSo534Lo1sSog7pLo1LmvrLo3Cn1jSo9Cn14Lo6Lm2Po7gLo1Lm3PogLo",
     "aNd2LokCn1Lu1Ll1Lu1Ll1Lu1Ll1Lu1Ll1Lu1Ll1Lu1Ll1Lu1Ll1Lu1Ll1Lu1Ll1Lu1Ll1Lu1Ll1Lu1Ll1Lu1Ll1Lu",
     "1Ll1Lu1Ll1Lu1Ll1Lu1Ll1Lu1Ll1Lu1Ll1Lu1Ll1Lu1Ll1Lu1Ll1Lu1Ll1Lo1Mn3Me1PoaMn1Po1Lm1Lu1Ll1Lu1Ll",
     "1Lu1Ll1Lu1Ll1Lu1Ll1Lu1Ll1Lu1Ll1Lu1Ll1Lu1Ll1Lu1Ll1Lu1Ll1Lu1Ll1Lu1Ll1Lu1Ll2Lm2Mn1yLoaNl2Mn6Po",
     "8CnnSk9Lm2Sk1Lu1Ll1Lu1Ll1Lu1Ll1Lu1Ll1Lu1Ll1Lu1Ll1Lu3Ll1Lu1Ll1Lu1Ll1Lu1Ll1Lu1Ll1Lu1Ll1Lu1Ll",
     "1Lu1Ll1Lu1Ll1Lu1Ll1Lu1Ll1Lu1Ll1Lu1Ll1Lu1Ll1Lu1Ll1Lu1Ll1Lu1Ll1Lu1Ll1Lu1Ll1Lu1Ll1Lu1Ll1Lu1Ll",
     "1Lu1Ll1Lu1Ll1Lu1Ll1Lu1Ll1Lu1Ll1Lu1Ll1Lu1Ll1Lu1Ll1Lu1Ll1Lu1Ll1Lm8Ll1Lu1Ll1Lu1Ll2Lu1Ll1Lu1Ll",
     "1Lu1Ll1Lu1Ll1Lu1Ll1Lm2Sk1Lu1Ll1Lu1Ll1Lo1Lu1Ll1Lu3Ll1Lu1Ll1Lu1Ll1Lu1Ll1Lu1Ll1Lu1Ll1Lu1Ll1Lu",
     "1Ll1Lu1Ll1Lu1Ll1Lu1Ll5Lu1Ll5Lu1Ll1Lu1Ll1Lu1Ll1Lu1Ll1Lu1Ll1Lu1Ll1Lu1Ll1Lu1Ll4Lu1Ll1Lu1Ll2Lu",
     "1Ll1Lu1Ll1Lu1Ll1Lu1Ll1Lu1Ll1Lu1Ll1Lu1Ll1Lu1Ll1LukCn4Lm1Lu1Ll1Lo2Lm1Ll7Lo1Mn3Lo1Mn4Lo1MnnLo",
     "2Mc2Mn1Mc4So1Mn3Cn6No2So1Sc1So6Cn1gLo4Po8Cn2Mc1eLogMc2Mn8Cn2PoaNd6CniMn6Lo3Po1Lo1Po2Lo1MnaNd",
     "sLo8Mn2PonLobMn2McbCn1PotLo3Cn3Mn1Mc1bLo1Mn2Mc4Mn2Mc2Mn3McdPo1Cn1LmaNd4Cn2Po5Lo1Mn1Lm9LoaNd",
     "5Lo1Cn15Lo6Mn2Mc2Mn2Mc2Mn9Cn3Lo1Mn8Lo1Mn1Mc2CnaNd2Cn4PogLo1Lm6Lo3So1Lo1Mc1Mn1Mc1eLo1Mn1Lo3Mn",
     "2Lo2Mn5Lo2Mn1Lo1Mn1LooCn2Lo1Lm2PobLo1Mc2Mn2Mc2Po1Lo2Lm1Mc1MnaCn6Lo2Cn6Lo2Cn6Lo9Cn7Lo1Cn7Lo",
     "1Cn17Ll1Sk4Lm9Ll1Lm2Sk4Cn28LlzLo2Mc1Mn2Mc1Mn2Mc1Po1Mc1Mn2CnaNd6Cn8mcLocCnnLo4Cn1dLo4Cn1kwCs",
     "4xsCoa6Lo2Cn2yLo12Cn7LlcCn5Ll5Cn1Lo1MnaLo1SmdLo1Cn5Lo1Cn1Lo1Cn2Lo1Cn2Lo1Cn30LohSkgSoa3Lo1Pe",
     "1PsgSo1sLo2So1iLo8SowCncLo1Sc3SogMn7Po1Ps1Pe1Po6CngMn1Po2Pd2Pc1Ps1Pe1Ps1Pe1Ps1Pe1Ps1Pe1Ps1Pe",
     "1Ps1Pe1Ps1Pe1Ps1Pe2Po1Ps1Pe4Po3Pc3Po1Cn4Po1Pd1Ps1Pe1Ps1Pe1Ps1Pe3Po1Sm1Pd3Sm1Cn1Po1Sc2Po4Cn",
     "5Lo1Cn3rLo2Cn1Cf1Cn3Po1Sc3Po1Ps1Pe1Po1Sm1Po1Pd2PoaNd2Po3Sm2PoqLu1Ps1Po1Pe1Sk1Pc1SkqLl1Ps1Sm",
     "1Pe1Sm1Ps1Pe1Po1Ps1Pe2PoaLo1Lm19Lo2LmvLo3Cn6Lo2Cn6Lo2Cn6Lo2Cn3Lo3Cn2Sc1Sm1Sk1So2Sc1Cn1So4Sm",
     "2SoaCn3Cf2So2CncLo1CnqLo1CnjLo1Cn2Lo1CnfLo2CneLoyCn3fLo5Cn3Po4Cn19No3Cn9So1hNl4NohSo2No3So",
     "1CndSo3Cn1So1bCn19So1Mn3mCntLo3Cn1dLofCn1MnrNo4CnwLo4No9CnkLo1Nl8Lo1Nl5Cn12Lo5Mn5CnuLo1Cn1Po",
     "10Lo4Cn8Lo1Po5Nl16Cn14Lu14Ll26Lo2CnaNd6Cn10Lu4Cn10Ll4Cn14Lo8Cn1gLobCn1PobLu1CnfLu1Cn7Lu1Cn",
     "2Lu1CnbLl1CnfLl1Cn7Ll1Cn2Ll3Cn1gLocCn8nLo9CnmLoaCn8LooCn6Lm1Cn16Lm1Cn9Lm1xCn6Lo2Cn1Lo1Cn18Lo",
     "1Cn2Lo3Cn1Lo2CnnLo1Cn1Po8NonLo2So7NovLo8Cn9No1cCnjLo1Cn2Lo5Cn5NomLo6No3Cn1PoqLo5Cn1PoqLo12Cn",
     "1kLo4Cn2No2LogNo2Cn1aNo1Lo3Mn1Cn2Mn5Cn4Mn4Lo1Cn3Lo1CntLo2Cn3Mn4Cn1Mn9No7Cn9Po7CntLo2No1PotLo",
     "3NowCn8Lo1SosLo2Mn4Cn5No7Po9Cn1iLo3Cn7PomLo2Cn8NojLo5Cn8NoiLo7Cn4PocCn7No28Cn21Lo1jCn1fLudCn",
     "1fLl7Cn6No10Lo4Mn8CnaNd6CnaNd4Lo1Lm1LomLu3Cn5Mn1Pd1LmmLl8Cn2Sm5sCnvNo1Cn16Lo1Cn2Mn1Pd2Cn2Lo",
     "gCn3Lo1Lm2Lo8Cn1Po8SoxCn6MntLoaNo1Lo8CnmLobMn4No5PomCniLo4Mn4Po12CnlLo7NokCnnLo9Cn1Mc1Mn1Mc",
     "1hLofMn7Po4CnkNoaNd1Mn2Lo2Mn1Lo9Cn3Mn1Mc19Lo3Mc4Mn2Mc2Mn2Po1Cf4Po1MnaCn1Cf2CnpLo7CnaNd6Cn3Mn",
     "10Lo5Mn1Mc8Mn1CnaNd4Po1Lo2Mc1Lo8CnzLo1Mn2Po1Lo9Cn2Mn1Mc1cLo3Mc9Mn2Mc4Lo4Po4Mn1Po1Mc1MnaNd1Lo",
     "1Po1Lo3Po1CnkNobCniLo1CnpLo3Mc3Mn2Mc1Mn1Mc2Mn6Po1Mn2Lo1Mn1qCn7Lo1Cn1Lo1Cn4Lo1CnfLo1CnaLo1Po",
     "6Cn1bLo1Mn3Mc8Mn5CnaNd6Cn2Mn2Mc1Cn8Lo2Cn2Lo2CnmLo1Cn7Lo1Cn2Lo1Cn5Lo1Cn2Mn1Lo2Mc1Mn4Mc2Cn2Mc",
     "2Cn3Mc2Cn1Lo6Cn1Mc5Cn5Lo2Mc2Cn7Mn3Cn5MnbCnaLo1Cn1Lo2Cn1Lo1Cn12Lo1Cn1Lo3Mc6Mn1Cn1Mc2Cn1Mc1Cn",
     "4Mc1Cn2Mc1Mn1Mc1Mn1Lo1Mn1Lo2Po1Cn2Po8Cn2MntCn1hLo3Mc8Mn2Mc3Mn1Mc1Mn4Lo5PoaNd2Po1Cn1Po1Mn3Lo",
     "uCn1cLo3Mc6Mn1Mc1Mn4Mc2Mn1Mc2Mn2Lo1Po1Lo8CnaNd4mCn1bLo3Mc4Mn2Cn4Mc2Mn1Mc2MnnPo4Lo2MnyCn1cLo",
     "3Mc8Mn2Mc1Mn1Mc2Mn3Po1LobCnaNd6CndPojCn17Lo1Mn1Mc1Mn2Mc6Mn1Mc1Mn1Lo1Po6CnaNd6CnkNdsCnrLo2Cn",
     "1Mn1Mc1Mn2Mc4Mn1Mc5Mn4CnaNd2No3Po1So7Lo55Cn18Lo3Mc9Mn1Mc2Mn1Po2sCnwLuwLlaNd9NocCn8Lo2Cn1Lo",
     "2Cn8Lo1Cn2Lo1CnoLo6Mc1Cn2Mc2Cn2Mn1Mc1Mn1Lo1Mc1Lo1Mc1Mn3Po9CnaNd1yCn8Lo2Cn13Lo3Mc4Mn2Cn2Mn4Mc",
     "1Mn1Lo1Po1Lo1McrCn1LoaMn14Lo6Mn1Mc1Lo4Mn8Po1Mn8Cn1Lo6Mn2Mc3Mn1aLodMn1Mc2Mn3Po1Lo5PodCn21Lo",
     "7CnaPo2eCn1Mn1Mc3Mn1Mc1Mn1Mc2gCnxLo1PoeCnaNd6Cn9Lo1Cn11Lo1Mc7Mn1Cn6Mn1Mc1Mn1Lo5PoaCnaNdjNo",
     "3Cn2PouLo2CnmMn1Cn1Mc7Mn1Mc2Mn1Mc2Mn21Cn7Lo1Cn2Lo1Cn12Lo6Mn3Cn1Mn1Cn2Mn1Cn7Mn1Lo1Mn8CnaNd6Cn",
     "6Lo1Cn2Lo1CnwLo5Mc1Cn2Mn1Cn2Mc1Mn1Mc1Mn1Lo7CnaNd6Cn15Lo1Lm2Lo4CnaNd6uCnjLo2Mn2Mc2Po7Cn2Mn1Lo",
     "1McdLo1CnyLo2Mc5Mn3Cn2Mc1Mn1Mc1MndPoaNd1Mn2dCn1LofCnlNo8So4SchSodCn1PopmLo2uCn33Nl1Cn5PobCn",
     "5gLo218Cn2pLo2PodCntsLogCf1Mn6LofMnaCn32zLo5Cng7Lo5a1CnuLocMn3Mc3MnaNd1c6CnftLo7CnvLo1CnaNd",
     "4Cn2Po27Lo1CnaNd6CnuLo2Cn5Mn1PoaCn1cLo7Mn5Po4So4Lm1Po1SoaCnaNd1Cn7No1CnlLo5CnjLoc0Cn3Lm14Lo",
     "2Lm3PoaNd5iCnwLuwLlnNo4Po5CnpLu2CnpLl18Cn23Lo4Cn1Mn1Lo1jMc7Cn4MndLm1sCn2Lm1Po1Lm1MnbCn2Mc2Lm",
     "3Nl9Cn5p2Lo15CnwLo2pCn37Lo6ppCn4Lm1Cn7Lm1Cn2Lm1Cn83LofCn1LotCn3Lo2Cn1LoeCn4Lo8Cnb0Lo1s4Cn",
     "2zLo5CndLo3Cn9Lo7CnaLo2Cn1So2Mn1Po4Cf318Cn6oSoaNd3So3Cnc4So6CnnSofCngSo1SmfCn1aMn2CnnMn9Cn",
     "38So1oCn6uSoaCn13So2Cn1oSo2Mc3Mn3So6Mc8Cf8Mn2So7MnuSo4Mn1pSolCn1uSo3Mn1So3eCnkNocCnkNocCn",
     "2fSo9CnpNo3rCnqLuqLlqLu7Ll1CniLlqLuqLl1Lu1Cn2Lu2Cn1Lu2Cn2Lu2Cn4Lu1Cn8Lu4Ll1Cn1Ll1Cn7Ll1CnbLl",
     "qLuqLl2Lu1Cn4Lu2Cn8Lu1Cn7Lu1CnqLl2Lu1Cn4Lu1Cn5Lu1Cn1Lu3Cn7Lu1CnqLlqLuqLlqLuqLlqLuqLlqLuqLl",
     "qLuqLlqLusLl2CnpLu1SmpLl1Sm6LlpLu1SmpLl1Sm6LlpLu1SmpLl1Sm6LlpLu1SmpLl1Sm6LlpLu1SmpLl1Sm6Ll",
     "1Lu1Ll2Cn1eNde8So1jMn4So1eMn8So1MneSo1Mn2So5PofCn5Mn1CnfMnuoCnaLl1LokLl6Cn6Ll5xCn7Mn1CnhMn",
     "2Cn7Mn1Cn2Mn1Cn5Mn5Cn1qLmxCn1Mn34Cn19Lo3Cn7Mn7Lm2CnaNd4Cn1Lo1So8wCnuLo1MnhCn18Lo4MnaNd5Cn1Sc",
     "cwCnrLo1Lm4MnaNd5yCnuLo2Mn1LoaNd4Cn1Po5cCnvLo1Cn3Lo1Mn2Lo1Mn7Lo2Mn5Lo1Mn8Cn1Lo1Lm68Cn7Lo1Cn",
     "4Lo1Cn2Lo1CnfLo1Cn5hLo2Cn9No7Mn15CnyLuyLl7Mn1Lm4CnaNd4Cn2PoltCn1nNo1So3No1Sc4No24Cn19No1So",
     "fNo5eCn4Lo1CnrLo1Cn2Lo1Cn1Lo2Cn1Lo1CnaLo1Cn4Lo1Cn1Lo1Cn1Lo6Cn1Lo4Cn1Lo1Cn1Lo1Cn1Lo1Cn3Lo1Cn",
     "2Lo1Cn1Lo2Cn1Lo1Cn1Lo1Cn1Lo1Cn1Lo1Cn1Lo1Cn2Lo1Cn1Lo2Cn4Lo1Cn7Lo1Cn4Lo1Cn4Lo1Cn1Lo1CnaLo1Cn",
     "hLo5Cn3Lo1Cn5Lo1CnhLo1gCn2Sm7iCn18So4Cn2sSocCnfSo2CnfSo1CnfSo1Cn11SoaCndNo4hSo1kCntSodCn18So",
     "4Cn9So7Cn2SoeCn6So4aCn6zSo5Skk9So3CnhSo3CndSo3Cn62So6CncSo4Cn1SofCncSo4Cn1kSo8CnaSo6Cn14So",
     "8CnuSo2CncSo4Cn2SoeCn9Sm13Cn9kSo8CneSo2CndSo3CnbSo3Cn1lSo1Cn1So4CngSo2CncSo4CnaSo7Cn43So1Cn",
     "2kSoaNd1SoslCnwyoLowCn3dqLo2Cn4geLo2Cn5rlLofCnhaLo1wiCnf2Lo15uCn3t7Lo5Cn6juLof5vrCn1CfuCn",
     "2oCf3kCn6oMn1e6oCn1ekeCo2Cn1ekeCo2Cn"]

def of (c : Char) : Category :=
  (table.kinds[rank table.starts c.toNat - 1]?).getD unassigned

end Category

end Verdict
