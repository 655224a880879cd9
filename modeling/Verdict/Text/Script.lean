import Verdict.Text.CharSet

namespace Verdict.Script

/-- What has been read of the coded table: the end of the last run, the length and the letters of
the run being read, and the start, end and script of the runs so far. -/
structure Reading where
  last : Nat
  length : Nat
  letters : List Char
  runs : Array (Nat × Nat × String)

/-- Reads one character of the coded table. -/
def Reading.push (r : Reading) (c : Char) : Reading :=
  match r.letters with
  | [] => if c.isUpper then { r with letters := [c] }
    else { r with length := r.length * 36 + (digit? 36 c).getD 0 }
  | [_, _, _] =>
    { last := r.last + r.length
      length := 0
      letters := []
      runs := r.runs.push (r.last, r.last + r.length, String.ofList (r.letters ++ [c])) }
  | _ => { r with letters := r.letters ++ [c] }

/-- The runs of equal script, from the first code point to the last. They are coded as the length of
each run in base 36, then the four letters of its script. -/
def table : Array (Nat × Nat × String) :=
  (coded.foldl (fun (r : Reading) (line : String) => line.foldl Reading.push r)
    ⟨0, 0, [], #[]⟩).runs
where
  coded : List String :=
    ["1tZyyyqLatn6ZyyyqLatn1bZyyy1LatnfZyyy1Latn5ZyyynLatn1ZyyyvLatn1ZyyychLatn13Zyyy5Latn5Zyyy",
     "2BopokZyyy34Zinh4Grek1Zyyy3Grek2Zzzz4Grek1Zyyy1Grek4Zzzz1Grek1Zyyy1Grek1Zyyy3Grek1Zzzz1Grek",
     "1ZzzzkGrek1Zzzz1rGrekeCoptgGrek3pCyrl2Zinh4pCyrl1Zzzz12Armn2Zzzz1eArmn2Zzzz3Armn1Zzzz1jHebr",
     "8ZzzzrHebr4Zzzz6HebrbZzzz5Arab1Zyyy6Arab1ZyyyeArab1Zyyy3Arab1ZyyywArab1ZyyyaArabbZinhqArab",
     "1Zinh30Arab1ZyyyyArabeSyrc1Zzzz1oSyrc2Zzzz3Syrc1cArab1eThaaeZzzz1nNkoo2Zzzz3Nkoo1aSamr2Zzzz",
     "fSamr1ZzzzsMand2Zzzz1Mand1ZzzzbSyrc5ZzzzyArab5Zzzz23Arab1ZyyytArab29Deva4ZinhfDeva2ZyyyqDeva",
     "4Beng1Zzzz8Beng2Zzzz2Beng2ZzzzmBeng1Zzzz7Beng1Zzzz1Beng3Zzzz4Beng2Zzzz9Beng2Zzzz2Beng2Zzzz",
     "4Beng8Zzzz1Beng4Zzzz2Beng1Zzzz5Beng2ZzzzpBeng2Zzzz3Guru1Zzzz6Guru4Zzzz2Guru2ZzzzmGuru1Zzzz",
     "7Guru1Zzzz2Guru1Zzzz2Guru1Zzzz2Guru2Zzzz1Guru1Zzzz5Guru4Zzzz2Guru2Zzzz3Guru3Zzzz1Guru7Zzzz",
     "4Guru1Zzzz1Guru7ZzzzhGuruaZzzz3Gujr1Zzzz9Gujr1Zzzz3Gujr1ZzzzmGujr1Zzzz7Gujr1Zzzz2Gujr1Zzzz",
     "5Gujr2ZzzzaGujr1Zzzz3Gujr1Zzzz3Gujr2Zzzz1GujrfZzzz4Gujr2ZzzzcGujr7Zzzz7Gujr1Zzzz3Orya1Zzzz",
     "8Orya2Zzzz2Orya2ZzzzmOrya1Zzzz7Orya1Zzzz2Orya1Zzzz5Orya2Zzzz9Orya2Zzzz2Orya2Zzzz3Orya7Zzzz",
     "3Orya4Zzzz2Orya1Zzzz5Orya2ZzzziOryaaZzzz2Taml1Zzzz6Taml3Zzzz3Taml1Zzzz4Taml3Zzzz2Taml1Zzzz",
     "1Taml1Zzzz2Taml3Zzzz2Taml3Zzzz3Taml3ZzzzcTaml4Zzzz5Taml3Zzzz3Taml1Zzzz4Taml2Zzzz1Taml6Zzzz",
     "1TamleZzzzlTaml5ZzzzdTelu1Zzzz3Telu1ZzzznTelu1ZzzzgTelu2Zzzz9Telu1Zzzz3Telu1Zzzz4Telu7Zzzz",
     "2Telu1Zzzz3Telu1Zzzz2Telu2Zzzz4Telu2ZzzzaTelu7Zzzz9TeludKnda1Zzzz3Knda1ZzzznKnda1ZzzzaKnda",
     "1Zzzz5Knda2Zzzz9Knda1Zzzz3Knda1Zzzz4Knda7Zzzz2Knda5Zzzz3Knda1Zzzz4Knda2ZzzzaKnda1Zzzz3Knda",
     "cZzzzdMlym1Zzzz3Mlym1Zzzz1fMlym1Zzzz3Mlym1Zzzz6Mlym4ZzzzgMlym2ZzzzqMlym1Zzzz3Sinh1ZzzziSinh",
     "3ZzzzoSinh1Zzzz9Sinh1Zzzz1Sinh2Zzzz7Sinh3Zzzz1Sinh4Zzzz6Sinh1Zzzz1Sinh1Zzzz8Sinh6ZzzzaSinh",
     "2Zzzz3SinhcZzzz1mThai4Zzzz1ZyyysThai11Zzzz2Laoo1Zzzz1Laoo1Zzzz5Laoo1ZzzzoLaoo1Zzzz1Laoo1Zzzz",
     "nLaoo2Zzzz5Laoo1Zzzz1Laoo1Zzzz7Laoo1ZzzzaLaoo2Zzzz4LaoowZzzz20Tibt1Zzzz10Tibt4Zzzz13Tibt",
     "1Zzzz10Tibt1ZzzzfTibt1Zzzz7Tibt4Zyyy2Tibt11Zzzz4gMymr12Geor1Zzzz1Geor5Zzzz1Geor2Zzzz17Geor",
     "1Zyyy4Geor74Hang21Ethi1Zzzz4Ethi2Zzzz7Ethi1Zzzz1Ethi1Zzzz4Ethi2Zzzz15Ethi1Zzzz4Ethi2Zzzz",
     "xEthi1Zzzz4Ethi2Zzzz7Ethi1Zzzz1Ethi1Zzzz4Ethi2ZzzzfEthi1Zzzz1lEthi1Zzzz4Ethi2Zzzz1vEthi2Zzzz",
     "wEthi3ZzzzqEthi6Zzzz2eCher2Zzzz6Cher2ZzzzhsCanstOgam3Zzzz23Runr3ZyyybRunr7ZzzzmTglg9Zzzz",
     "1TglglHano2Zyyy9ZzzzkBuhdcZzzzdTagb1Zzzz3Tagb1Zzzz2TagbcZzzz2mKhmr2ZzzzaKhmr6ZzzzaKhmr6Zzzz",
     "2Mong2Zyyy1Mong1ZyyykMong6Zzzz2hMong7Zzzz17Mong5Zzzz1yCansaZzzzvLimb1ZzzzcLimb4ZzzzcLimb",
     "4Zzzz1Limb3ZzzzcLimbuTale2Zzzz5TalebZzzz18Talu4ZzzzqTalu6ZzzzbTalu3Zzzz2TaluwKhmrsBugi2Zzzz",
     "2Bugi1rLana1ZzzztLana2ZzzzbLana6ZzzzaLana6ZzzzeLana2Zzzz1aZinh2ZzzzcZinhkZzzz25Bali1Zzzz",
     "1eBali1sSund1gBatk8Zzzz4Batk1kLepc3ZzzzfLepc3Zzzz3Lepc1cOlckbCyrl5Zzzz17Geor2Zzzz3Geor8Sund",
     "8Zzzz3Zinh1ZyyydZinh1Zyyy7Zinh4Zyyy1Zinh6Zyyy1Zinh3Zyyy2Zinh1Zyyy5Zzzz12Latn5Grek1Cyrl1dLatn",
     "5Grek4Latn5GrekdLatn1Cyrl1yLatn1Grek1sZinh74LatnmGrek2Zzzz6Grek2Zzzz12Grek2Zzzz6Grek2Zzzz",
     "8Grek1Zzzz1Grek1Zzzz1Grek1Zzzz1Grek1ZzzzvGrek2Zzzz1hGrek1ZzzzfGrek1ZzzzeGrek2Zzzz6Grek1Zzzz",
     "jGrek2Zzzz3Grek1Zzzz9Grek1ZzzzcZyyy2Zinh2fZyyy1ZzzzbZyyy1Latn2ZzzzbZyyy1LatnfZyyy1ZzzzdLatn",
     "3ZzzzyZyyyeZzzzxZinhfZzzz12Zyyy1Grek3Zyyy2Latn6Zyyy1LatnrZyyy1LatnhZyyy15Latn3Zyyy4Zzzz",
     "iiZyyymZzzzbZyyylZzzzpsZyyy74BraihgZyyy2Zzzz3uZyyy2oGlagwLatn38Copt5Zzzz7Copt12Geor1Zzzz",
     "1Geor5Zzzz1Geor2Zzzz1kTfng7Zzzz2TfngeZzzz1TfngnEthi9Zzzz7Ethi1Zzzz7Ethi1Zzzz7Ethi1Zzzz7Ethi",
     "1Zzzz7Ethi1Zzzz7Ethi1Zzzz7Ethi1Zzzz7Ethi1ZzzzwCyrl2mZyyyyZzzzqHani1Zzzz2hHanicZzzz5yHani",
     "qZzzzlZyyy1Hani1Zyyy1HanipZyyy9Hani4Zinh2Hang8Zyyy4Hani4Zyyy1Zzzz2eHira2Zzzz2Zinh2Zyyy3Hira",
     "1Zyyy2iKana2Zyyy3Kana5Zzzz17Bopo1Zzzz2mHang1ZzzzgZyyywBopo12Zyyy9Zzzz1ZyyygKanavHang1Zzzz",
     "1sZyyyvHang29Zyyy1bKana1Zyyy2gKana4oZyyy534Hani1sZyyyg74HaniwdYiii3Zzzz1jYiii9Zzzz1cLisu",
     "8cVaiikZzzz2oCyrl2gBamu8ZzzzyZyyy2uLatn3Zyyy2aLatnkZzzzfLatn19Sylo3ZzzzaZyyy6Zzzz1kPhag8Zzzz",
     "1ySaur8ZzzzcSaur6ZzzzwDeva1aKali1Zyyy1Kali10RjngbZzzz1RjngtHang3Zzzz26Java1Zzzz1ZyyyaJava",
     "4Zzzz2JavavMymr1Zzzz1jCham9ZzzzeCham2ZzzzaCham2Zzzz4ChamwMymr1vTavtoZzzz5TavtnMteiaZzzz6Ethi",
     "2Zzzz6Ethi2Zzzz6Ethi9Zzzz7Ethi1Zzzz7Ethi1Zzzz17Latn1Zyyy9Latn1Grek4Latn2Zyyy4Zzzz28Cher",
     "1aMtei2ZzzzaMtei6Zzzz8mcHangcZzzznHang4Zzzz1dHang4Zzzz1kwZzzz4xsZzzza6Hani2Zzzz2yHani12Zzzz",
     "7LatncZzzz5Armn5ZzzzqHebr1Zzzz5Hebr1Zzzz1Hebr1Zzzz2Hebr1Zzzz2Hebr1ZzzzaHebrdqArab2Zyyy40Arab",
     "wZzzzgArabgZinhaZyyy6ZzzzeZinh2CyrlzZyyy1ZzzzjZyyy1Zzzz4Zyyy4Zzzz5Arab1Zzzz3rArab2Zzzz1Zyyy",
     "1ZzzzwZyyyqLatn6ZyyyqLatnbZyyyaKana1Zyyy19Kana2ZyyyvHang3Zzzz6Hang2Zzzz6Hang2Zzzz6Hang2Zzzz",
     "3Hang3Zzzz7Zyyy1Zzzz7ZyyyaZzzz5Zyyy2ZzzzcLinb1ZzzzqLinb1ZzzzjLinb1Zzzz2Linb1ZzzzfLinb2Zzzz",
     "eLinbyZzzz3fLinb5Zzzz3Zyyy4Zzzz19Zyyy3Zzzz9Zyyy27Grek1ZzzzdZyyy3Zzzz1Grek1bZzzz19Zyyy1Zinh",
     "3mZzzztLyci3Zzzz1dCarifZzzz1ZinhrZyyy4Zzzz10Ital9Zzzz3ItalrGoth5Zzzz17Perm5ZzzzuUgar1Zzzz",
     "1Ugar10Xpeo4ZzzzeXpeo16Zzzz28Dsrt1cShawuOsma2ZzzzaOsma6Zzzz10Osge4Zzzz10Osge4Zzzz14Elba8Zzzz",
     "1gAghbbZzzz1AghbbVith1ZzzzfVith1Zzzz7Vith1Zzzz2Vith1ZzzzbVith1ZzzzfVith1Zzzz7Vith1Zzzz2Vith",
     "3Zzzz1gTodrcZzzz8nLina9ZzzzmLinaaZzzz8LinaoZzzz6Latn1Zzzz16Latn1Zzzz9Latn1xZzzz6Cprt2Zzzz",
     "1Cprt1Zzzz18Cprt1Zzzz2Cprt3Zzzz1Cprt2Zzzz1CprtmArmi1Zzzz9ArmiwPalmvNbat8Zzzz9Nbat1cZzzzjHatr",
     "1Zzzz2Hatr5Zzzz5HatrsPhnx3Zzzz1PhnxqLydi5Zzzz1LydiqSidt12ZzzzwMerooMerc4ZzzzkMerc2Zzzz1aMerc",
     "4Khar1Zzzz2Khar5Zzzz8Khar1Zzzz3Khar1ZzzztKhar2Zzzz3Khar4ZzzzaKhar7Zzzz9Khar7ZzzzwSarbwNarb",
     "wZzzz13Mani4ZzzzcMani9Zzzz1iAvst3Zzzz7AvstmPrti2Zzzz8PrtijPhli5Zzzz8PhliiPhlp7Zzzz4PhlpcZzzz",
     "7Phlp28Zzzz21Orkh1jZzzz1fHungdZzzz1fHung7Zzzz6Hung14Rohg8ZzzzaRohg6Zzzz12Gara3ZzzztGara8Zzzz",
     "2Gara5sZzzzvArab1Zzzz16Yezi1Zzzz3Yezi2Zzzz2YezigZzzz6Arab8Zzzz9ArabxZzzz6Arab14Sogo8Zzzz",
     "16SogdmZzzzqOugr12ZzzzsChrskZzzznElym9Zzzz26Brah4Zzzz10Brah9Zzzz1Brah1vKthiaZzzz1Kthi2Zzzz",
     "pSora7ZzzzaSora6Zzzz1hCakm1ZzzziCakm8Zzzz13Mahj9Zzzz2oShrd1ZzzzkSinhbZzzziKhoj1Zzzz1bKhoj",
     "1qZzzz7Mult1Zzzz1Mult1Zzzz4Mult1ZzzzfMult1ZzzzbMult6Zzzz1nSind5ZzzzaSind6Zzzz4Gran1Zzzz8Gran",
     "2Zzzz2Gran2ZzzzmGran1Zzzz7Gran1Zzzz2Gran1Zzzz5Gran1Zzzz1Zinh9Gran2Zzzz2Gran2Zzzz3Gran2Zzzz",
     "1Gran6Zzzz1Gran5Zzzz7Gran2Zzzz7Gran3Zzzz5GranbZzzzaTutg1Zzzz1Tutg2Zzzz1Tutg1Zzzz12Tutg1Zzzz",
     "aTutg1Zzzz1Tutg2Zzzz1Tutg1Zzzz4Tutg1ZzzzaTutg1Zzzz2Tutg8Zzzz2TutgtZzzz2kNewa1Zzzz5NewauZzzz",
     "20Tirh8ZzzzaTirh4mZzzz1iSidd2Zzzz12SiddyZzzz1xModibZzzzaModi6ZzzzdMongjZzzz1mTakr6ZzzzaTakr",
     "6ZzzzkMymrsZzzzrAhom2ZzzzfAhom4ZzzznAhom55Zzzz1oDogr2sZzzz2bWaracZzzz1Wara7Diak2Zzzz1Diak",
     "2Zzzz8Diak1Zzzz2Diak1ZzzzuDiak1Zzzz2Diak2ZzzzcDiak9ZzzzaDiak1yZzzz8Nand2Zzzz1aNand2ZzzzbNand",
     "rZzzz20Zanb8Zzzz2bSoyodZzzzgCans1lPauc7ZzzzaDeva2eZzzz8Shrd2gZzzzySunueZzzzaSunu6Zzzz9Bhks",
     "1Zzzz19Bhks1ZzzzeBhksaZzzztBhks3ZzzzwMarc2ZzzzmMarc1ZzzzeMarc21Zzzz7Gonm1Zzzz2Gonm1Zzzz",
     "18Gonm3Zzzz1Gonm1Zzzz2Gonm1Zzzz9Gonm8ZzzzaGonm6Zzzz6Gong1Zzzz2Gong1Zzzz11Gong1Zzzz2Gong1Zzzz",
     "6Gong7ZzzzaGong6Zzzz18Tols4ZzzzaTols6uZzzzpMaka7ZzzzhKawi1Zzzz15Kawi3ZzzztKawi2dZzzz1Lisu",
     "fZzzz1eTamldZzzz1TamlpmXsux2uZzzz33Xsux1Zzzz5XsuxbZzzz5gXsux218Zzzz2rCpmndZzzzuuEgypaZzzz",
     "32zEgyp5Zzzzg7Hluw5a1Zzzz1mGukh1c6ZzzzftBamu7ZzzzvMroo1ZzzzaMroo4Zzzz2Mroo27Tnsa1ZzzzaTnsa",
     "6ZzzzuBass2Zzzz6BassaZzzz1yHmngaZzzzaHmng1Zzzz7Hmng1ZzzzlHmng5ZzzzjHmngc0Zzzz1mKrai5iZzzz",
     "2jMedf5ZzzzpBerf2ZzzzpBerf18Zzzz23Plrd4Zzzz1lPlrd7ZzzzhPlrd1sZzzz1Tang1Nshu2Hani1KitsbZzzz",
     "7Hani9Zzzz5c0Tangd2Kits15Zzzz1KitsvTang2pZzzz37Tang6ppZzzz4Kana1Zzzz7Kana1Zzzz2Kana1Zzzz",
     "1Kana7zHira3KanafZzzz1HiratZzzz3Hira2Zzzz1KanaeZzzz4Kana8Zzzzb0Nshu1s4Zzzz2zDupl5ZzzzdDupl",
     "3Zzzz9Dupl7ZzzzaDupl2Zzzz4Dupl4Zyyy318Zzzz71Zyyy3Zzzzc4Zyyy6ZzzznZyyyfZzzzhZyyyfZzzz1aZinh",
     "2ZzzznZinh9Zzzz38Zyyy1oZzzz6uZyyyaZzzz13Zyyy2Zzzz1qZyyy3ZinhhZyyy8Zinh2Zyyy7ZinhuZyyy4Zinh",
     "1pZyyylZzzz1yGrek3eZzzzkZyyycZzzzkZyyycZzzz2fZyyy9ZzzzpZyyy3rZzzz2dZyyy1Zzzz1zZyyy1Zzzz2Zyyy",
     "2Zzzz1Zyyy2Zzzz2Zyyy2Zzzz4Zyyy1ZzzzcZyyy1Zzzz1Zyyy1Zzzz7Zyyy1Zzzz1tZyyy1Zzzz4Zyyy2Zzzz8Zyyy",
     "1Zzzz7Zyyy1ZzzzsZyyy1Zzzz4Zyyy1Zzzz5Zyyy1Zzzz1Zyyy3Zzzz7Zyyy1Zzzz9gZyyy2Zzzz84Zyyy2Zzzz",
     "1eZyyyi4SgnwfZzzz5Sgnw1ZzzzfSgnwuoZzzzvLatn6Zzzz6Latn5xZzzz7Glag1ZzzzhGlag2Zzzz7Glag1Zzzz",
     "2Glag1Zzzz5Glag5Zzzz1qCyrlxZzzz1Cyrl34Zzzz19Hmnp3ZzzzeHmnp2ZzzzaHmnp4Zzzz2Hmnp8wZzzzvToto",
     "hZzzz1mWcho5Zzzz1WchocwZzzz16Nagm5yZzzz17Onao4Zzzz1Onao5cZzzzvTayo1ZzzzmTayo8Zzzz2Tayo68Zzzz",
     "7Ethi1Zzzz4Ethi1Zzzz2Ethi1ZzzzfEthi1Zzzz5hMend2ZzzzgMend15Zzzz24Adlm4ZzzzaAdlm4Zzzz2Adlm",
     "ltZzzz1wZyyy24Zzzz1pZyyy5eZzzz4Arab1ZzzzrArab1Zzzz2Arab1Zzzz1Arab2Zzzz1Arab1ZzzzaArab1Zzzz",
     "4Arab1Zzzz1Arab1Zzzz1Arab6Zzzz1Arab4Zzzz1Arab1Zzzz1Arab1Zzzz1Arab1Zzzz3Arab1Zzzz2Arab1Zzzz",
     "1Arab2Zzzz1Arab1Zzzz1Arab1Zzzz1Arab1Zzzz1Arab1Zzzz1Arab1Zzzz2Arab1Zzzz1Arab2Zzzz4Arab1Zzzz",
     "7Arab1Zzzz4Arab1Zzzz4Arab1Zzzz1Arab1ZzzzaArab1ZzzzhArab5Zzzz3Arab1Zzzz5Arab1ZzzzhArab1gZzzz",
     "2Arab7iZzzz18Zyyy4Zzzz2sZyyycZzzzfZyyy2ZzzzfZyyy1ZzzzfZyyy1Zzzz11ZyyyaZzzz4uZyyy1kZzzzqZyyy",
     "1Hira2ZyyydZzzz18Zyyy4Zzzz9Zyyy7Zzzz2ZyyyeZzzz6Zyyy4aZzzzrdZyyy3ZzzzhZyyy3ZzzzdZyyy3Zzzz",
     "62Zyyy6ZzzzcZyyy4Zzzz1ZyyyfZzzzcZyyy4Zzzz1kZyyy8ZzzzaZyyy6Zzzz14Zyyy8ZzzzuZyyy2ZzzzcZyyy",
     "4Zzzz2ZyyyeZzzz9Zyyy13Zzzz9kZyyy8ZzzzeZyyy2ZzzzdZyyy3ZzzzbZyyy3Zzzz1lZyyy1Zzzz1Zyyy4Zzzz",
     "gZyyy2ZzzzcZyyy4ZzzzaZyyy7Zzzz43Zyyy1Zzzz2vZyyyslZzzzwyoHaniwZzzz3dqHani2Zzzz4geHani2Zzzz",
     "5rlHanifZzzzhaHani1wiZzzzf2Hani15uZzzz3t7Hani5Zzzz6juHanif5vrZzzz1ZyyyuZzzz2oZyyy3kZzzz",
     "6oZinh47bkZzzz"]

/-- The scripts by their long and short names, in lower case and without separators. -/
def names : List (String × String) :=
  [("adlam", "Adlm"), ("adlm", "Adlm"), ("ahom", "Ahom"), ("anatolianhieroglyphs", "Hluw"),
   ("hluw", "Hluw"), ("arabic", "Arab"), ("arab", "Arab"), ("armenian", "Armn"),
   ("armn", "Armn"), ("avestan", "Avst"), ("avst", "Avst"), ("balinese", "Bali"),
   ("bali", "Bali"), ("bamum", "Bamu"), ("bamu", "Bamu"), ("bassavah", "Bass"),
   ("bass", "Bass"), ("batak", "Batk"), ("batk", "Batk"), ("bengali", "Beng"), ("beng", "Beng"),
   ("beriaerfe", "Berf"), ("berf", "Berf"), ("bhaiksuki", "Bhks"), ("bhks", "Bhks"),
   ("bopomofo", "Bopo"), ("bopo", "Bopo"), ("brahmi", "Brah"), ("brah", "Brah"),
   ("braille", "Brai"), ("brai", "Brai"), ("buginese", "Bugi"), ("bugi", "Bugi"),
   ("buhid", "Buhd"), ("buhd", "Buhd"), ("canadianaboriginal", "Cans"), ("cans", "Cans"),
   ("carian", "Cari"), ("cari", "Cari"), ("caucasianalbanian", "Aghb"), ("aghb", "Aghb"),
   ("chakma", "Cakm"), ("cakm", "Cakm"), ("cham", "Cham"), ("cherokee", "Cher"),
   ("cher", "Cher"), ("chorasmian", "Chrs"), ("chrs", "Chrs"), ("common", "Zyyy"),
   ("zyyy", "Zyyy"), ("coptic", "Copt"), ("copt", "Copt"), ("qaac", "Copt"),
   ("cuneiform", "Xsux"), ("xsux", "Xsux"), ("cypriot", "Cprt"), ("cprt", "Cprt"),
   ("cyprominoan", "Cpmn"), ("cpmn", "Cpmn"), ("cyrillic", "Cyrl"), ("cyrl", "Cyrl"),
   ("deseret", "Dsrt"), ("dsrt", "Dsrt"), ("devanagari", "Deva"), ("deva", "Deva"),
   ("divesakuru", "Diak"), ("diak", "Diak"), ("dogra", "Dogr"), ("dogr", "Dogr"),
   ("duployan", "Dupl"), ("dupl", "Dupl"), ("egyptianhieroglyphs", "Egyp"), ("egyp", "Egyp"),
   ("elbasan", "Elba"), ("elba", "Elba"), ("elymaic", "Elym"), ("elym", "Elym"),
   ("ethiopic", "Ethi"), ("ethi", "Ethi"), ("garay", "Gara"), ("gara", "Gara"),
   ("georgian", "Geor"), ("geor", "Geor"), ("glagolitic", "Glag"), ("glag", "Glag"),
   ("gothic", "Goth"), ("goth", "Goth"), ("grantha", "Gran"), ("gran", "Gran"),
   ("greek", "Grek"), ("grek", "Grek"), ("gujarati", "Gujr"), ("gujr", "Gujr"),
   ("gunjalagondi", "Gong"), ("gong", "Gong"), ("gurmukhi", "Guru"), ("guru", "Guru"),
   ("gurungkhema", "Gukh"), ("gukh", "Gukh"), ("han", "Hani"), ("hani", "Hani"),
   ("hangul", "Hang"), ("hang", "Hang"), ("hanifirohingya", "Rohg"), ("rohg", "Rohg"),
   ("hanunoo", "Hano"), ("hano", "Hano"), ("hatran", "Hatr"), ("hatr", "Hatr"),
   ("hebrew", "Hebr"), ("hebr", "Hebr"), ("hiragana", "Hira"), ("hira", "Hira"),
   ("imperialaramaic", "Armi"), ("armi", "Armi"), ("inherited", "Zinh"), ("zinh", "Zinh"),
   ("qaai", "Zinh"), ("inscriptionalpahlavi", "Phli"), ("phli", "Phli"),
   ("inscriptionalparthian", "Prti"), ("prti", "Prti"), ("javanese", "Java"), ("java", "Java"),
   ("kaithi", "Kthi"), ("kthi", "Kthi"), ("kannada", "Knda"), ("knda", "Knda"),
   ("katakana", "Kana"), ("kana", "Kana"), ("kawi", "Kawi"), ("kayahli", "Kali"),
   ("kali", "Kali"), ("kharoshthi", "Khar"), ("khar", "Khar"), ("khitansmallscript", "Kits"),
   ("kits", "Kits"), ("khmer", "Khmr"), ("khmr", "Khmr"), ("khojki", "Khoj"), ("khoj", "Khoj"),
   ("khudawadi", "Sind"), ("sind", "Sind"), ("kiratrai", "Krai"), ("krai", "Krai"),
   ("lao", "Laoo"), ("laoo", "Laoo"), ("latin", "Latn"), ("latn", "Latn"), ("lepcha", "Lepc"),
   ("lepc", "Lepc"), ("limbu", "Limb"), ("limb", "Limb"), ("lineara", "Lina"), ("lina", "Lina"),
   ("linearb", "Linb"), ("linb", "Linb"), ("lisu", "Lisu"), ("lycian", "Lyci"),
   ("lyci", "Lyci"), ("lydian", "Lydi"), ("lydi", "Lydi"), ("mahajani", "Mahj"),
   ("mahj", "Mahj"), ("makasar", "Maka"), ("maka", "Maka"), ("malayalam", "Mlym"),
   ("mlym", "Mlym"), ("mandaic", "Mand"), ("mand", "Mand"), ("manichaean", "Mani"),
   ("mani", "Mani"), ("marchen", "Marc"), ("marc", "Marc"), ("masaramgondi", "Gonm"),
   ("gonm", "Gonm"), ("medefaidrin", "Medf"), ("medf", "Medf"), ("meeteimayek", "Mtei"),
   ("mtei", "Mtei"), ("mendekikakui", "Mend"), ("mend", "Mend"), ("meroiticcursive", "Merc"),
   ("merc", "Merc"), ("meroitichieroglyphs", "Mero"), ("mero", "Mero"), ("miao", "Plrd"),
   ("plrd", "Plrd"), ("modi", "Modi"), ("mongolian", "Mong"), ("mong", "Mong"), ("mro", "Mroo"),
   ("mroo", "Mroo"), ("multani", "Mult"), ("mult", "Mult"), ("myanmar", "Mymr"),
   ("mymr", "Mymr"), ("nabataean", "Nbat"), ("nbat", "Nbat"), ("nagmundari", "Nagm"),
   ("nagm", "Nagm"), ("nandinagari", "Nand"), ("nand", "Nand"), ("newtailue", "Talu"),
   ("talu", "Talu"), ("newa", "Newa"), ("nko", "Nkoo"), ("nkoo", "Nkoo"), ("nushu", "Nshu"),
   ("nshu", "Nshu"), ("nyiakengpuachuehmong", "Hmnp"), ("hmnp", "Hmnp"), ("ogham", "Ogam"),
   ("ogam", "Ogam"), ("olchiki", "Olck"), ("olck", "Olck"), ("olonal", "Onao"),
   ("onao", "Onao"), ("oldhungarian", "Hung"), ("hung", "Hung"), ("olditalic", "Ital"),
   ("ital", "Ital"), ("oldnortharabian", "Narb"), ("narb", "Narb"), ("oldpermic", "Perm"),
   ("perm", "Perm"), ("oldpersian", "Xpeo"), ("xpeo", "Xpeo"), ("oldsogdian", "Sogo"),
   ("sogo", "Sogo"), ("oldsoutharabian", "Sarb"), ("sarb", "Sarb"), ("oldturkic", "Orkh"),
   ("orkh", "Orkh"), ("olduyghur", "Ougr"), ("ougr", "Ougr"), ("oriya", "Orya"),
   ("orya", "Orya"), ("osage", "Osge"), ("osge", "Osge"), ("osmanya", "Osma"), ("osma", "Osma"),
   ("pahawhhmong", "Hmng"), ("hmng", "Hmng"), ("palmyrene", "Palm"), ("palm", "Palm"),
   ("paucinhau", "Pauc"), ("pauc", "Pauc"), ("phagspa", "Phag"), ("phag", "Phag"),
   ("phoenician", "Phnx"), ("phnx", "Phnx"), ("psalterpahlavi", "Phlp"), ("phlp", "Phlp"),
   ("rejang", "Rjng"), ("rjng", "Rjng"), ("runic", "Runr"), ("runr", "Runr"),
   ("samaritan", "Samr"), ("samr", "Samr"), ("saurashtra", "Saur"), ("saur", "Saur"),
   ("sharada", "Shrd"), ("shrd", "Shrd"), ("shavian", "Shaw"), ("shaw", "Shaw"),
   ("siddham", "Sidd"), ("sidd", "Sidd"), ("sidetic", "Sidt"), ("sidt", "Sidt"),
   ("signwriting", "Sgnw"), ("sgnw", "Sgnw"), ("sinhala", "Sinh"), ("sinh", "Sinh"),
   ("sogdian", "Sogd"), ("sogd", "Sogd"), ("sorasompeng", "Sora"), ("sora", "Sora"),
   ("soyombo", "Soyo"), ("soyo", "Soyo"), ("sundanese", "Sund"), ("sund", "Sund"),
   ("sunuwar", "Sunu"), ("sunu", "Sunu"), ("sylotinagri", "Sylo"), ("sylo", "Sylo"),
   ("syriac", "Syrc"), ("syrc", "Syrc"), ("tagalog", "Tglg"), ("tglg", "Tglg"),
   ("tagbanwa", "Tagb"), ("tagb", "Tagb"), ("taile", "Tale"), ("tale", "Tale"),
   ("taitham", "Lana"), ("lana", "Lana"), ("taiviet", "Tavt"), ("tavt", "Tavt"),
   ("taiyo", "Tayo"), ("tayo", "Tayo"), ("takri", "Takr"), ("takr", "Takr"), ("tamil", "Taml"),
   ("taml", "Taml"), ("tangsa", "Tnsa"), ("tnsa", "Tnsa"), ("tangut", "Tang"), ("tang", "Tang"),
   ("telugu", "Telu"), ("telu", "Telu"), ("thaana", "Thaa"), ("thaa", "Thaa"), ("thai", "Thai"),
   ("tibetan", "Tibt"), ("tibt", "Tibt"), ("tifinagh", "Tfng"), ("tfng", "Tfng"),
   ("tirhuta", "Tirh"), ("tirh", "Tirh"), ("todhri", "Todr"), ("todr", "Todr"),
   ("tolongsiki", "Tols"), ("tols", "Tols"), ("toto", "Toto"), ("tulutigalari", "Tutg"),
   ("tutg", "Tutg"), ("ugaritic", "Ugar"), ("ugar", "Ugar"), ("vai", "Vaii"), ("vaii", "Vaii"),
   ("vithkuqi", "Vith"), ("vith", "Vith"), ("wancho", "Wcho"), ("wcho", "Wcho"),
   ("warangciti", "Wara"), ("wara", "Wara"), ("yezidi", "Yezi"), ("yezi", "Yezi"),
   ("yi", "Yiii"), ("yiii", "Yiii"), ("zanabazarsquare", "Zanb"), ("zanb", "Zanb")]

def ofCode (code : String) : CharSet :=
  .runs ⟨table.foldl (fun edges (start, stop, k) =>
    if k == code then (edges.push start).push stop else edges) #[]⟩

/-- The characters of the script with this name. -/
def named? (name : String) : Option CharSet :=
  (names.lookup name).map ofCode

end Verdict.Script
