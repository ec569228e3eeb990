import DomainModels.Unicode.Category

/-!
Scripts and the derived letter properties of characters.

The scripts of all code points are written as one run-length text: each run is its length, left out
when it is one, and the four letters of its script.
-/

namespace DomainModels.Unicode

/-- Names of the scripts and their four-letter codes. -/
def scriptNames : List (String × String) :=
  [("Adlam", "Adlm"), ("Caucasian_Albanian", "Aghb"), ("Ahom", "Ahom"), ("Arabic", "Arab"),
   ("Imperial_Aramaic", "Armi"), ("Armenian", "Armn"), ("Avestan", "Avst"), ("Balinese", "Bali"),
   ("Bamum", "Bamu"), ("Bassa_Vah", "Bass"), ("Batak", "Batk"), ("Bengali", "Beng"),
   ("Bhaiksuki", "Bhks"), ("Bopomofo", "Bopo"), ("Brahmi", "Brah"), ("Braille", "Brai"),
   ("Buginese", "Bugi"), ("Buhid", "Buhd"), ("Chakma", "Cakm"), ("Canadian_Aboriginal", "Cans"),
   ("Carian", "Cari"), ("Cham", "Cham"), ("Cherokee", "Cher"), ("Chorasmian", "Chrs"),
   ("Coptic", "Copt"), ("Qaac", "Copt"), ("Cypro_Minoan", "Cpmn"), ("Cypriot", "Cprt"),
   ("Cyrillic", "Cyrl"), ("Devanagari", "Deva"), ("Dives_Akuru", "Diak"), ("Dogra", "Dogr"),
   ("Deseret", "Dsrt"), ("Duployan", "Dupl"), ("Egyptian_Hieroglyphs", "Egyp"),
   ("Elbasan", "Elba"), ("Elymaic", "Elym"), ("Ethiopic", "Ethi"), ("Georgian", "Geor"),
   ("Glagolitic", "Glag"), ("Gunjala_Gondi", "Gong"), ("Masaram_Gondi", "Gonm"),
   ("Gothic", "Goth"), ("Grantha", "Gran"), ("Greek", "Grek"), ("Gujarati", "Gujr"),
   ("Gurmukhi", "Guru"), ("Hangul", "Hang"), ("Han", "Hani"), ("Hanunoo", "Hano"),
   ("Hatran", "Hatr"), ("Hebrew", "Hebr"), ("Hiragana", "Hira"),
   ("Anatolian_Hieroglyphs", "Hluw"), ("Pahawh_Hmong", "Hmng"),
   ("Nyiakeng_Puachue_Hmong", "Hmnp"), ("Old_Hungarian", "Hung"), ("Old_Italic", "Ital"),
   ("Javanese", "Java"), ("Kayah_Li", "Kali"), ("Katakana", "Kana"), ("Kawi", "Kawi"),
   ("Kharoshthi", "Khar"), ("Khmer", "Khmr"), ("Khojki", "Khoj"),
   ("Khitan_Small_Script", "Kits"), ("Kannada", "Knda"), ("Kaithi", "Kthi"),
   ("Tai_Tham", "Lana"), ("Lao", "Laoo"), ("Latin", "Latn"), ("Lepcha", "Lepc"),
   ("Limbu", "Limb"), ("Linear_A", "Lina"), ("Linear_B", "Linb"), ("Lisu", "Lisu"),
   ("Lycian", "Lyci"), ("Lydian", "Lydi"), ("Mahajani", "Mahj"), ("Makasar", "Maka"),
   ("Mandaic", "Mand"), ("Manichaean", "Mani"), ("Marchen", "Marc"), ("Medefaidrin", "Medf"),
   ("Mende_Kikakui", "Mend"), ("Meroitic_Cursive", "Merc"), ("Meroitic_Hieroglyphs", "Mero"),
   ("Malayalam", "Mlym"), ("Modi", "Modi"), ("Mongolian", "Mong"), ("Mro", "Mroo"),
   ("Meetei_Mayek", "Mtei"), ("Multani", "Mult"), ("Myanmar", "Mymr"), ("Nag_Mundari", "Nagm"),
   ("Nandinagari", "Nand"), ("Old_North_Arabian", "Narb"), ("Nabataean", "Nbat"),
   ("Newa", "Newa"), ("Nko", "Nkoo"), ("Nushu", "Nshu"), ("Ogham", "Ogam"), ("Ol_Chiki", "Olck"),
   ("Old_Turkic", "Orkh"), ("Oriya", "Orya"), ("Osage", "Osge"), ("Osmanya", "Osma"),
   ("Old_Uyghur", "Ougr"), ("Palmyrene", "Palm"), ("Pau_Cin_Hau", "Pauc"),
   ("Old_Permic", "Perm"), ("Phags_Pa", "Phag"), ("Inscriptional_Pahlavi", "Phli"),
   ("Psalter_Pahlavi", "Phlp"), ("Phoenician", "Phnx"), ("Miao", "Plrd"),
   ("Inscriptional_Parthian", "Prti"), ("Rejang", "Rjng"), ("Hanifi_Rohingya", "Rohg"),
   ("Runic", "Runr"), ("Samaritan", "Samr"), ("Old_South_Arabian", "Sarb"),
   ("Saurashtra", "Saur"), ("SignWriting", "Sgnw"), ("Shavian", "Shaw"), ("Sharada", "Shrd"),
   ("Siddham", "Sidd"), ("Khudawadi", "Sind"), ("Sinhala", "Sinh"), ("Sogdian", "Sogd"),
   ("Old_Sogdian", "Sogo"), ("Sora_Sompeng", "Sora"), ("Soyombo", "Soyo"), ("Sundanese", "Sund"),
   ("Syloti_Nagri", "Sylo"), ("Syriac", "Syrc"), ("Tagbanwa", "Tagb"), ("Takri", "Takr"),
   ("Tai_Le", "Tale"), ("New_Tai_Lue", "Talu"), ("Tamil", "Taml"), ("Tangut", "Tang"),
   ("Tai_Viet", "Tavt"), ("Telugu", "Telu"), ("Tifinagh", "Tfng"), ("Tagalog", "Tglg"),
   ("Thaana", "Thaa"), ("Thai", "Thai"), ("Tibetan", "Tibt"), ("Tirhuta", "Tirh"),
   ("Tangsa", "Tnsa"), ("Toto", "Toto"), ("Ugaritic", "Ugar"), ("Vai", "Vaii"),
   ("Vithkuqi", "Vith"), ("Warang_Citi", "Wara"), ("Wancho", "Wcho"), ("Old_Persian", "Xpeo"),
   ("Cuneiform", "Xsux"), ("Yezidi", "Yezi"), ("Yi", "Yiii"), ("Zanabazar_Square", "Zanb"),
   ("Inherited", "Zinh"), ("Qaai", "Zinh"), ("Common", "Zyyy"), ("Unknown", "Zzzz")]

/-- The scripts of all code points in order, as runs. -/
def scriptRuns : String := String.join
  ["65Zyyy26Latn6Zyyy26Latn47ZyyyLatn15ZyyyLatn5Zyyy23LatnZyyy31LatnZyyy449Latn39Zyyy5Latn5Zyyy2",
   "Bopo20Zyyy112Zinh4GrekZyyy3Grek2Zzzz4GrekZyyyGrek4ZzzzGrekZyyyGrekZyyy3GrekZzzzGrekZzzz20Gre",
   "kZzzz63Grek14Copt16Grek133Cyrl2Zinh169CyrlZzzz38Armn2Zzzz50Armn2Zzzz3ArmnZzzz55Hebr8Zzzz27He",
   "br4Zzzz6Hebr11Zzzz5ArabZyyy6ArabZyyy14ArabZyyy3ArabZyyy32ArabZyyy10Arab11Zinh26ArabZinh108Ar",
   "abZyyy34Arab14SyrcZzzz60Syrc2Zzzz3Syrc48Arab50Thaa14Zzzz59Nkoo2Zzzz3Nkoo46Samr2Zzzz15SamrZzz",
   "z28Mand2ZzzzMandZzzz11Syrc5Zzzz31ArabZzzz2Arab6Zzzz74ArabZyyy29Arab81Deva4Zinh15Deva2Zyyy26D",
   "eva4BengZzzz8Beng2Zzzz2Beng2Zzzz22BengZzzz7BengZzzzBeng3Zzzz4Beng2Zzzz9Beng2Zzzz2Beng2Zzzz4B",
   "eng8ZzzzBeng4Zzzz2BengZzzz5Beng2Zzzz25Beng2Zzzz3GuruZzzz6Guru4Zzzz2Guru2Zzzz22GuruZzzz7GuruZ",
   "zzz2GuruZzzz2GuruZzzz2Guru2ZzzzGuruZzzz5Guru4Zzzz2Guru2Zzzz3Guru3ZzzzGuru7Zzzz4GuruZzzzGuru7",
   "Zzzz17Guru10Zzzz3GujrZzzz9GujrZzzz3GujrZzzz22GujrZzzz7GujrZzzz2GujrZzzz5Gujr2Zzzz10GujrZzzz3",
   "GujrZzzz3Gujr2ZzzzGujr15Zzzz4Gujr2Zzzz12Gujr7Zzzz7GujrZzzz3OryaZzzz8Orya2Zzzz2Orya2Zzzz22Ory",
   "aZzzz7OryaZzzz2OryaZzzz5Orya2Zzzz9Orya2Zzzz2Orya2Zzzz3Orya7Zzzz3Orya4Zzzz2OryaZzzz5Orya2Zzzz",
   "18Orya10Zzzz2TamlZzzz6Taml3Zzzz3TamlZzzz4Taml3Zzzz2TamlZzzzTamlZzzz2Taml3Zzzz2Taml3Zzzz3Taml",
   "3Zzzz12Taml4Zzzz5Taml3Zzzz3TamlZzzz4Taml2ZzzzTaml6ZzzzTaml14Zzzz21Taml5Zzzz13TeluZzzz3TeluZz",
   "zz23TeluZzzz16Telu2Zzzz9TeluZzzz3TeluZzzz4Telu7Zzzz2TeluZzzz3Telu2ZzzzTelu2Zzzz4Telu2Zzzz10T",
   "elu7Zzzz9Telu13KndaZzzz3KndaZzzz23KndaZzzz10KndaZzzz5Knda2Zzzz9KndaZzzz3KndaZzzz4Knda7Zzzz2K",
   "nda6Zzzz2KndaZzzz4Knda2Zzzz10KndaZzzz3Knda12Zzzz13MlymZzzz3MlymZzzz51MlymZzzz3MlymZzzz6Mlym4",
   "Zzzz16Mlym2Zzzz26MlymZzzz3SinhZzzz18Sinh3Zzzz24SinhZzzz9SinhZzzzSinh2Zzzz7Sinh3ZzzzSinh4Zzzz",
   "6SinhZzzzSinhZzzz8Sinh6Zzzz10Sinh2Zzzz3Sinh12Zzzz58Thai4ZzzzZyyy28Thai37Zzzz2LaooZzzzLaooZzz",
   "z5LaooZzzz24LaooZzzzLaooZzzz23Laoo2Zzzz5LaooZzzzLaooZzzz7LaooZzzz10Laoo2Zzzz4Laoo32Zzzz72Tib",
   "tZzzz36Tibt4Zzzz39TibtZzzz36TibtZzzz15TibtZzzz7Tibt4Zyyy2Tibt37Zzzz160Mymr38GeorZzzzGeor5Zzz",
   "zGeor2Zzzz43GeorZyyy4Geor256Hang73EthiZzzz4Ethi2Zzzz7EthiZzzzEthiZzzz4Ethi2Zzzz41EthiZzzz4Et",
   "hi2Zzzz33EthiZzzz4Ethi2Zzzz7EthiZzzzEthiZzzz4Ethi2Zzzz15EthiZzzz57EthiZzzz4Ethi2Zzzz67Ethi2Z",
   "zzz32Ethi3Zzzz26Ethi6Zzzz86Cher2Zzzz6Cher2Zzzz640Cans29Ogam3Zzzz75Runr3Zyyy11Runr7Zzzz22Tglg",
   "9ZzzzTglg21Hano2Zyyy9Zzzz20Buhd12Zzzz13TagbZzzz3TagbZzzz2Tagb12Zzzz94Khmr2Zzzz10Khmr6Zzzz10K",
   "hmr6Zzzz2Mong2ZyyyMongZyyy20Mong6Zzzz89Mong7Zzzz43Mong5Zzzz70Cans10Zzzz31LimbZzzz12Limb4Zzzz",
   "12Limb4ZzzzLimb3Zzzz12Limb30Tale2Zzzz5Tale11Zzzz44Talu4Zzzz26Talu6Zzzz11Talu3Zzzz2Talu32Khmr",
   "28Bugi2Zzzz2Bugi63LanaZzzz29Lana2Zzzz11Lana6Zzzz10Lana6Zzzz14Lana2Zzzz31Zinh49Zzzz77Bali3Zzz",
   "z47BaliZzzz64Sund52Batk8Zzzz4Batk56Lepc3Zzzz15Lepc3Zzzz3Lepc48Olck9Cyrl7Zzzz43Geor2Zzzz3Geor",
   "8Sund8Zzzz3ZinhZyyy13ZinhZyyy7Zinh4ZyyyZinh6ZyyyZinh3Zyyy2ZinhZyyy5Zzzz38Latn5GrekCyrl49Latn",
   "5Grek4Latn5Grek13LatnCyrl70LatnGrek64Zinh256Latn22Grek2Zzzz6Grek2Zzzz38Grek2Zzzz6Grek2Zzzz8G",
   "rekZzzzGrekZzzzGrekZzzzGrekZzzz31Grek2Zzzz53GrekZzzz15GrekZzzz14Grek2Zzzz6GrekZzzz19Grek2Zzz",
   "z3GrekZzzz9GrekZzzz12Zyyy2Zinh87ZyyyZzzz11ZyyyLatn2Zzzz11ZyyyLatn15ZyyyZzzz13Latn3Zzzz33Zyyy",
   "15Zzzz33Zinh15Zzzz38ZyyyGrek3Zyyy2Latn6ZyyyLatn27ZyyyLatn17Zyyy41Latn3Zyyy4Zzzz663Zyyy25Zzzz",
   "11Zyyy21Zzzz928Zyyy256Brai628Zyyy2Zzzz32ZyyyZzzz105Zyyy96Glag32Latn116Copt5Zzzz7Copt38GeorZz",
   "zzGeor5ZzzzGeor2Zzzz56Tfng7Zzzz2Tfng14ZzzzTfng23Ethi9Zzzz7EthiZzzz7EthiZzzz7EthiZzzz7EthiZzz",
   "z7EthiZzzz7EthiZzzz7EthiZzzz7EthiZzzz32Cyrl94Zyyy34Zzzz26HaniZzzz89Hani12Zzzz214Hani26Zzzz12",
   "Zyyy4Zzzz5ZyyyHaniZyyyHani25Zyyy9Hani4Zinh2Hang8Zyyy4Hani4ZyyyZzzz86Hira2Zzzz2Zinh2Zyyy3Hira",
   "Zyyy90Kana2Zyyy3Kana5Zzzz43BopoZzzz94HangZzzz16Zyyy32Bopo36Zyyy12Zzzz16Kana31HangZzzz64Zyyy3",
   "1Hang81Zyyy47KanaZyyy88Kana168Zyyy6592Hani64Zyyy20992Hani1165Yiii3Zzzz55Yiii9Zzzz48Lisu300Va",
   "ii20Zzzz96Cyrl88Bamu8Zzzz34Zyyy102Latn3Zyyy64Latn5Zzzz2LatnZzzzLatnZzzz5Latn24Zzzz14Latn45Sy",
   "lo3Zzzz10Zyyy6Zzzz56Phag8Zzzz70Saur8Zzzz12Saur6Zzzz32Deva46KaliZyyyKali36Rjng11ZzzzRjng29Han",
   "g3Zzzz78JavaZzzzZyyy10Java4Zzzz2Java31MymrZzzz55Cham9Zzzz14Cham2Zzzz10Cham2Zzzz4Cham32Mymr67",
   "Tavt24Zzzz5Tavt23Mtei10Zzzz6Ethi2Zzzz6Ethi2Zzzz6Ethi9Zzzz7EthiZzzz7EthiZzzz43LatnZyyy9LatnGr",
   "ek4Latn2Zyyy4Zzzz80Cher46Mtei2Zzzz10Mtei6Zzzz11172Hang12Zzzz23Hang4Zzzz49Hang8452Zzzz366Hani",
   "2Zzzz106Hani38Zzzz7Latn12Zzzz5Armn5Zzzz26HebrZzzz5HebrZzzzHebrZzzz2HebrZzzz2HebrZzzz10Hebr11",
   "5Arab16Zzzz363Arab2Zyyy80Arab2Zzzz54Arab7ZzzzArab32Zzzz16Arab16Zinh10Zyyy6Zzzz14Zinh2Cyrl35Z",
   "yyyZzzz19ZyyyZzzz4Zyyy4Zzzz5ArabZzzz135Arab2ZzzzZyyyZzzz32Zyyy26Latn6Zyyy26Latn11Zyyy10KanaZ",
   "yyy45Kana2Zyyy31Hang3Zzzz6Hang2Zzzz6Hang2Zzzz6Hang2Zzzz3Hang3Zzzz7ZyyyZzzz7Zyyy10Zzzz5Zyyy2Z",
   "zzz12LinbZzzz26LinbZzzz19LinbZzzz2LinbZzzz15Linb2Zzzz14Linb34Zzzz123Linb5Zzzz3Zyyy4Zzzz45Zyy",
   "y3Zzzz9Zyyy79GrekZzzz13Zyyy3ZzzzGrek47Zzzz45ZyyyZinh130Zzzz29Lyci3Zzzz49Cari15ZzzzZinh27Zyyy",
   "4Zzzz36Ital9Zzzz3Ital27Goth5Zzzz43Perm5Zzzz30UgarZzzzUgar36Xpeo4Zzzz14Xpeo42Zzzz80Dsrt48Shaw",
   "30Osma2Zzzz10Osma6Zzzz36Osge4Zzzz36Osge4Zzzz40Elba8Zzzz52Aghb11ZzzzAghb11VithZzzz15VithZzzz7",
   "VithZzzz2VithZzzz11VithZzzz15VithZzzz7VithZzzz2Vith67Zzzz311Lina9Zzzz22Lina10Zzzz8Lina24Zzzz",
   "6LatnZzzz42LatnZzzz9Latn69Zzzz6Cprt2ZzzzCprtZzzz44CprtZzzz2Cprt3ZzzzCprt2ZzzzCprt22ArmiZzzz9",
   "Armi32Palm31Nbat8Zzzz9Nbat48Zzzz19HatrZzzz2Hatr5Zzzz5Hatr28Phnx3ZzzzPhnx26Lydi5ZzzzLydi64Zzz",
   "z32Mero24Merc4Zzzz20Merc2Zzzz46Merc4KharZzzz2Khar5Zzzz8KharZzzz3KharZzzz29Khar2Zzzz3Khar4Zzz",
   "z10Khar7Zzzz9Khar7Zzzz32Sarb32Narb32Zzzz39Mani4Zzzz12Mani9Zzzz54Avst3Zzzz7Avst22Prti2Zzzz8Pr",
   "ti19Phli5Zzzz8Phli18Phlp7Zzzz4Phlp12Zzzz7Phlp80Zzzz73Orkh55Zzzz51Hung13Zzzz51Hung7Zzzz6Hung4",
   "0Rohg8Zzzz10Rohg294Zzzz31ArabZzzz42YeziZzzz3Yezi2Zzzz2Yezi75Zzzz3Arab40Sogo8Zzzz42Sogd22Zzzz",
   "26Ougr38Zzzz28Chrs20Zzzz23Elym9Zzzz78Brah4Zzzz36Brah9ZzzzBrah67Kthi10ZzzzKthi2Zzzz25Sora7Zzz",
   "z10Sora6Zzzz53CakmZzzz18Cakm8Zzzz39Mahj9Zzzz96ShrdZzzz20Sinh11Zzzz18KhojZzzz47Khoj62Zzzz7Mul",
   "tZzzzMultZzzz4MultZzzz15MultZzzz11Mult6Zzzz59Sind5Zzzz10Sind6Zzzz4GranZzzz8Gran2Zzzz2Gran2Zz",
   "zz22GranZzzz7GranZzzz2GranZzzz5GranZzzzZinh9Gran2Zzzz2Gran2Zzzz3Gran2ZzzzGran6ZzzzGran5Zzzz7",
   "Gran2Zzzz7Gran3Zzzz5Gran139Zzzz92NewaZzzz5Newa30Zzzz72Tirh8Zzzz10Tirh166Zzzz54Sidd2Zzzz38Sid",
   "d34Zzzz69Modi11Zzzz10Modi6Zzzz13Mong19Zzzz58Takr6Zzzz10Takr54Zzzz27Ahom2Zzzz15Ahom4Zzzz23Aho",
   "m185Zzzz60Dogr100Zzzz83Wara12ZzzzWara7Diak2ZzzzDiak2Zzzz8DiakZzzz2DiakZzzz30DiakZzzz2Diak2Zz",
   "zz12Diak9Zzzz10Diak70Zzzz8Nand2Zzzz46Nand2Zzzz11Nand27Zzzz72Zanb8Zzzz83Soyo13Zzzz16Cans57Pau",
   "c7Zzzz10Deva246Zzzz9BhksZzzz45BhksZzzz14Bhks10Zzzz29Bhks3Zzzz32Marc2Zzzz22MarcZzzz14Marc73Zz",
   "zz7GonmZzzz2GonmZzzz44Gonm3ZzzzGonmZzzz2GonmZzzz9Gonm8Zzzz10Gonm6Zzzz6GongZzzz2GongZzzz37Gon",
   "gZzzz2GongZzzz6Gong7Zzzz10Gong310Zzzz25Maka7Zzzz17KawiZzzz41Kawi3Zzzz28Kawi86ZzzzLisu15Zzzz5",
   "0Taml13ZzzzTaml922Xsux102Zzzz111XsuxZzzz5Xsux11Zzzz196Xsux2636Zzzz99Cpmn13Zzzz1110Egyp4010Zz",
   "zz583Hluw8633Zzzz569Bamu7Zzzz31MrooZzzz10Mroo4Zzzz2Mroo79TnsaZzzz10Tnsa6Zzzz30Bass2Zzzz6Bass",
   "10Zzzz70Hmng10Zzzz10HmngZzzz7HmngZzzz21Hmng5Zzzz19Hmng688Zzzz91Medf101Zzzz75Plrd4Zzzz57Plrd7",
   "Zzzz17Plrd64ZzzzTangNshu2HaniKits11Zzzz2Hani14Zzzz6136Tang8Zzzz768Tang470Kits42Zzzz9Tang8935",
   "Zzzz4KanaZzzz7KanaZzzz2KanaZzzzKana287Hira3Kana15ZzzzHira29Zzzz3Hira2ZzzzKana14Zzzz4Kana8Zzz",
   "z396Nshu2308Zzzz107Dupl5Zzzz13Dupl3Zzzz9Dupl7Zzzz10Dupl2Zzzz4Dupl4Zyyy4700Zzzz46Zinh2Zzzz23Z",
   "inh9Zzzz116Zyyy60Zzzz246Zyyy10Zzzz39Zyyy2Zzzz62Zyyy3Zinh17Zyyy8Zinh2Zyyy7Zinh30Zyyy4Zinh61Zy",
   "yy21Zzzz70Grek122Zzzz20Zyyy12Zzzz20Zyyy12Zzzz87Zyyy9Zzzz25Zyyy135Zzzz85ZyyyZzzz71ZyyyZzzz2Zy",
   "yy2ZzzzZyyy2Zzzz2Zyyy2Zzzz4ZyyyZzzz12ZyyyZzzzZyyyZzzz7ZyyyZzzz65ZyyyZzzz4Zyyy2Zzzz8ZyyyZzzz7",
   "ZyyyZzzz28ZyyyZzzz4ZyyyZzzz5ZyyyZzzzZyyy3Zzzz7ZyyyZzzz340Zyyy2Zzzz292Zyyy2Zzzz50Zyyy652Sgnw1",
   "5Zzzz5SgnwZzzz15Sgnw1104Zzzz31Latn6Zzzz6Latn213Zzzz7GlagZzzz17Glag2Zzzz7GlagZzzz2GlagZzzz5Gl",
   "ag5Zzzz62Cyrl33ZzzzCyrl112Zzzz45Hmnp3Zzzz14Hmnp2Zzzz10Hmnp4Zzzz2Hmnp320Zzzz31Toto17Zzzz58Wch",
   "o5ZzzzWcho464Zzzz42Nagm742Zzzz7EthiZzzz4EthiZzzz2EthiZzzz15EthiZzzz197Mend2Zzzz16Mend41Zzzz7",
   "6Adlm4Zzzz10Adlm4Zzzz2Adlm785Zzzz68Zyyy76Zzzz61Zyyy194Zzzz4ArabZzzz27ArabZzzz2ArabZzzzArab2Z",
   "zzzArabZzzz10ArabZzzz4ArabZzzzArabZzzzArab6ZzzzArab4ZzzzArabZzzzArabZzzzArabZzzz3ArabZzzz2Ar",
   "abZzzzArab2ZzzzArabZzzzArabZzzzArabZzzzArabZzzzArabZzzz2ArabZzzzArab2Zzzz4ArabZzzz7ArabZzzz4",
   "ArabZzzz4ArabZzzzArabZzzz10ArabZzzz17Arab5Zzzz3ArabZzzz5ArabZzzz17Arab52Zzzz2Arab270Zzzz44Zy",
   "yy4Zzzz100Zyyy12Zzzz15Zyyy2Zzzz15ZyyyZzzz15ZyyyZzzz37Zyyy10Zzzz174Zyyy56Zzzz26ZyyyHira2Zyyy1",
   "3Zzzz44Zyyy4Zzzz9Zyyy7Zzzz2Zyyy14Zzzz6Zyyy154Zzzz984Zyyy4Zzzz17Zyyy3Zzzz13Zyyy3Zzzz119Zyyy4Z",
   "zzz95Zyyy6Zzzz12Zyyy4ZzzzZyyy15Zzzz12Zyyy4Zzzz56Zyyy8Zzzz10Zyyy6Zzzz40Zyyy8Zzzz30Zyyy2Zzzz2Z",
   "yyy78Zzzz340Zyyy12Zzzz14Zyyy2Zzzz13Zyyy3Zzzz9Zyyy7Zzzz46ZyyyZzzz7Zyyy8Zzzz14Zyyy4Zzzz9Zyyy7Z",
   "zzz9Zyyy7Zzzz147ZyyyZzzz55Zyyy37Zzzz10Zyyy1030Zzzz42720Hani32Zzzz4154Hani6Zzzz222Hani2Zzzz57",
   "62Hani14Zzzz7473Hani3103Zzzz542Hani1506Zzzz4939Hani5Zzzz4192Hani711761ZzzzZyyy30Zzzz96Zyyy12",
   "8Zzzz240Zinh196112ZzzzZzzz"]

/-- Reads a run-length text of four-letter codes into the first code point of each run. -/
def readScriptRuns (start length : Nat) (taken : Array (Nat × String)) :
    List Char → Array (Nat × String)
  | a :: b :: c :: d :: rest =>
    if a.isDigit then
      readScriptRuns start (length * 10 + (a.toNat - '0'.toNat)) taken (b :: c :: d :: rest)
    else
      readScriptRuns (start + max length 1) 0 (taken.push (start, String.ofList [a, b, c, d])) rest
  | _ => taken

/-- First code points of the runs, in increasing order, with their scripts. -/
def scriptTable : Array (Nat × String) := readScriptRuns 0 0 #[] scriptRuns.toList

/-- The code of the script to which a character belongs. -/
def script (c : Char) : String := searchRuns scriptTable "Zzzz" c.toNat 0 scriptTable.size

/-- Whether a code point lies in one of the ranges. -/
def inRanges (ranges : List (Nat × Nat)) (n : Nat) : Bool :=
  ranges.any fun (first, last) => first ≤ n && n ≤ last

/-- Alphabetic code points that are neither letters nor letter numbers. -/
def otherAlphabetic : List (Nat × Nat) :=
  [(837, 837), (1456, 1469), (1471, 1471), (1473, 1474), (1476, 1477), (1479, 1479),
   (1552, 1562), (1611, 1623), (1625, 1631), (1648, 1648), (1750, 1756), (1761, 1764),
   (1767, 1768), (1773, 1773), (1809, 1809), (1840, 1855), (1958, 1968), (2070, 2071),
   (2075, 2083), (2085, 2087), (2089, 2092), (2260, 2271), (2275, 2281), (2288, 2307),
   (2362, 2363), (2366, 2380), (2382, 2383), (2389, 2391), (2402, 2403), (2433, 2435),
   (2494, 2500), (2503, 2504), (2507, 2508), (2519, 2519), (2530, 2531), (2561, 2563),
   (2622, 2626), (2631, 2632), (2635, 2636), (2641, 2641), (2672, 2673), (2677, 2677),
   (2689, 2691), (2750, 2757), (2759, 2761), (2763, 2764), (2786, 2787), (2810, 2812),
   (2817, 2819), (2878, 2884), (2887, 2888), (2891, 2892), (2902, 2903), (2914, 2915),
   (2946, 2946), (3006, 3010), (3014, 3016), (3018, 3020), (3031, 3031), (3072, 3076),
   (3134, 3140), (3142, 3144), (3146, 3148), (3157, 3158), (3170, 3171), (3201, 3203),
   (3262, 3268), (3270, 3272), (3274, 3276), (3285, 3286), (3298, 3299), (3315, 3315),
   (3328, 3331), (3390, 3396), (3398, 3400), (3402, 3404), (3415, 3415), (3426, 3427),
   (3457, 3459), (3535, 3540), (3542, 3542), (3544, 3551), (3570, 3571), (3633, 3633),
   (3636, 3642), (3661, 3661), (3761, 3761), (3764, 3769), (3771, 3772), (3789, 3789),
   (3953, 3971), (3981, 3991), (3993, 4028), (4139, 4150), (4152, 4152), (4155, 4158),
   (4182, 4185), (4190, 4192), (4194, 4196), (4199, 4205), (4209, 4212), (4226, 4237),
   (4239, 4239), (4250, 4253), (5906, 5907), (5938, 5939), (5970, 5971), (6002, 6003),
   (6070, 6088), (6277, 6278), (6313, 6313), (6432, 6443), (6448, 6456), (6679, 6683),
   (6741, 6750), (6753, 6772), (6847, 6848), (6860, 6862), (6912, 6916), (6965, 6979),
   (7040, 7042), (7073, 7081), (7084, 7085), (7143, 7153), (7204, 7222), (7655, 7668),
   (9398, 9449), (11744, 11775), (42612, 42619), (42654, 42655), (43010, 43010), (43019, 43019),
   (43043, 43047), (43136, 43137), (43188, 43203), (43205, 43205), (43263, 43263),
   (43302, 43306), (43335, 43346), (43392, 43395), (43444, 43455), (43493, 43493),
   (43561, 43574), (43587, 43587), (43596, 43597), (43643, 43645), (43696, 43696),
   (43698, 43700), (43703, 43704), (43710, 43710), (43755, 43759), (43765, 43765),
   (44003, 44010), (64286, 64286), (66422, 66426), (68097, 68099), (68101, 68102),
   (68108, 68111), (68900, 68903), (69291, 69292), (69632, 69634), (69688, 69701),
   (69747, 69748), (69760, 69762), (69808, 69816), (69826, 69826), (69888, 69890),
   (69927, 69938), (69957, 69958), (70016, 70018), (70067, 70079), (70094, 70095),
   (70188, 70196), (70199, 70199), (70206, 70206), (70209, 70209), (70367, 70376),
   (70400, 70403), (70462, 70468), (70471, 70472), (70475, 70476), (70487, 70487),
   (70498, 70499), (70709, 70721), (70723, 70725), (70832, 70849), (71087, 71093),
   (71096, 71102), (71132, 71133), (71216, 71230), (71232, 71232), (71339, 71349),
   (71453, 71466), (71724, 71736), (71984, 71989), (71991, 71992), (71995, 71996),
   (72000, 72000), (72002, 72002), (72145, 72151), (72154, 72159), (72164, 72164),
   (72193, 72202), (72245, 72249), (72251, 72254), (72273, 72283), (72330, 72343),
   (72751, 72758), (72760, 72766), (72850, 72871), (72873, 72886), (73009, 73014),
   (73018, 73018), (73020, 73021), (73023, 73025), (73027, 73027), (73031, 73031),
   (73098, 73102), (73104, 73105), (73107, 73110), (73459, 73462), (73472, 73473),
   (73475, 73475), (73524, 73530), (73534, 73536), (94031, 94031), (94033, 94087),
   (94095, 94098), (94192, 94193), (113822, 113822), (122880, 122886), (122888, 122904),
   (122907, 122913), (122915, 122916), (122918, 122922), (123023, 123023), (125255, 125255),
   (127280, 127305), (127312, 127337), (127344, 127369)]

/-- Lower-case code points that are no lower-case letters. -/
def otherLowercase : List (Nat × Nat) :=
  [(170, 170), (186, 186), (688, 696), (704, 705), (736, 740), (837, 837), (890, 890),
   (4348, 4348), (7468, 7530), (7544, 7544), (7579, 7615), (8305, 8305), (8319, 8319),
   (8336, 8348), (8560, 8575), (9424, 9449), (11388, 11389), (42652, 42653), (42864, 42864),
   (42994, 42996), (43000, 43001), (43868, 43871), (43881, 43881), (67456, 67456),
   (67459, 67461), (67463, 67504), (67506, 67514), (122928, 122989)]

/-- Upper-case code points that are no upper-case letters. -/
def otherUppercase : List (Nat × Nat) :=
  [(8544, 8559), (9398, 9423), (127280, 127305), (127312, 127337), (127344, 127369)]

def isAlphabetic (c : Char) : Bool :=
  isLetter c || category c = .nl || inRanges otherAlphabetic c.toNat

def isLowercase (c : Char) : Bool := category c = .ll || inRanges otherLowercase c.toNat

def isUppercase (c : Char) : Bool := category c = .lu || inRanges otherUppercase c.toNat

end DomainModels.Unicode
