import TextAnalysis.Unicode.Letters

/-!
# Scripts and alphabetic marks

Runs of code points for the scripts that a pattern may name, and for the combining marks that count
as alphabetic. Each table is one text: runs in hexadecimal, in increasing order, separated by
blanks.
-/

set_option autoImplicit false

namespace TextAnalysis.Unicode

/-- The value of a hexadecimal numeral. -/
def hexValue (digits : List Char) : Nat :=
  digits.foldl (fun n d => 16 * n + (if d.isDigit then d.toNat - 48 else d.toNat - 55)) 0

/-- Reads a run, a code point or two code points joined by a dash. -/
def readRun (run : String) : Nat × Nat :=
  match run.splitOn "-" with
  | [first, last] => (hexValue first.toList, hexValue last.toList)
  | _ => (hexValue run.toList, hexValue run.toList)

/-- Reads a table of runs. -/
def readRuns (text : String) : List (Nat × Nat) := (Text.fields text).map readRun

/-- Does a run of the table hold the character? -/
def isInRuns (runs : List (Nat × Nat)) (c : Char) : Bool :=
  runs.any fun run => run.1 ≤ c.toNat && c.toNat ≤ run.2

/-- The scripts that a pattern may name. -/
inductive Script where
  | latin
  | greek
  | cyrillic
  | han
  | hiragana
  | katakana
  | arabic
  | hebrew
  | thai
  | hangul
  | devanagari
  | armenian
  | georgian
  | tamil
  deriving DecidableEq, Repr

namespace Script

/-- The names of each script, in lower case: the full one and the four-letter one. -/
def names : List (String × Script) :=
  [("latin", .latin), ("latn", .latin),
   ("greek", .greek), ("grek", .greek),
   ("cyrillic", .cyrillic), ("cyrl", .cyrillic),
   ("han", .han), ("hani", .han),
   ("hiragana", .hiragana), ("hira", .hiragana),
   ("katakana", .katakana), ("kana", .katakana),
   ("arabic", .arabic), ("arab", .arabic),
   ("hebrew", .hebrew), ("hebr", .hebrew),
   ("thai", .thai),
   ("hangul", .hangul), ("hang", .hangul),
   ("devanagari", .devanagari), ("deva", .devanagari),
   ("armenian", .armenian), ("armn", .armenian),
   ("georgian", .georgian), ("geor", .georgian),
   ("tamil", .tamil), ("taml", .tamil)]

/-- The Latin characters. -/
def latinRuns : List (Nat × Nat) :=
  readRuns
    "41-5A 61-7A AA BA C0-D6 D8-F6 F8-2B8 2E0-2E4 1D00-1D25 1D2C-1D5C 1D62-1D65 1D6B-1D77
     1D79-1DBE 1E00-1EFF 2071 207F 2090-209C 212A-212B 2132 214E 2160-2188 2C60-2C7F A722-A787
     A78B-A7DC A7F1-A7FF AB30-AB5A AB5C-AB64 AB66-AB69 FB00-FB06 FF21-FF3A FF41-FF5A 10780-10785
     10787-107B0 107B2-107BA 1DF00-1DF1E 1DF25-1DF2A"

/-- The Greek characters. -/
def greekRuns : List (Nat × Nat) :=
  readRuns
    "370-373 375-377 37A-37D 37F 384 386 388-38A 38C 38E-3A1 3A3-3E1 3F0-3FF 1D26-1D2A 1D5D-1D61
     1D66-1D6A 1DBF 1F00-1F15 1F18-1F1D 1F20-1F45 1F48-1F4D 1F50-1F57 1F59 1F5B 1F5D 1F5F-1F7D
     1F80-1FB4 1FB6-1FC4 1FC6-1FD3 1FD6-1FDB 1FDD-1FEF 1FF2-1FF4 1FF6-1FFE 2126 AB65 10140-1018E
     101A0 1D200-1D245"

/-- The Cyrillic characters. -/
def cyrillicRuns : List (Nat × Nat) :=
  readRuns
    "400-484 487-52F 1C80-1C8A 1D2B 1D78 2DE0-2DFF A640-A69F FE2E-FE2F 1E030-1E06D 1E08F"

/-- The Han characters. -/
def hanRuns : List (Nat × Nat) :=
  readRuns
    "2E80-2E99 2E9B-2EF3 2F00-2FD5 3005 3007 3021-3029 3038-303B 3400-4DBF 4E00-9FFF F900-FA6D
     FA70-FAD9 16FE2-16FE3 16FF0-16FF6 20000-2A6DF 2A700-2B81D 2B820-2CEAD 2CEB0-2EBE0
     2EBF0-2EE5D 2F800-2FA1D 30000-3134A 31350-33479"

/-- The Hiragana characters. -/
def hiraganaRuns : List (Nat × Nat) :=
  readRuns
    "3041-3096 309D-309F 1B001-1B11F 1B132 1B150-1B152 1F200"

/-- The Katakana characters. -/
def katakanaRuns : List (Nat × Nat) :=
  readRuns
    "30A1-30FA 30FD-30FF 31F0-31FF 32D0-32FE 3300-3357 FF66-FF6F FF71-FF9D 1AFF0-1AFF3
     1AFF5-1AFFB 1AFFD-1AFFE 1B000 1B120-1B122 1B155 1B164-1B167"

/-- The Arabic characters. -/
def arabicRuns : List (Nat × Nat) :=
  readRuns
    "600-604 606-60B 60D-61A 61C-61E 620-63F 641-64A 656-66F 671-6DC 6DE-6FF 750-77F 870-891
     897-8E1 8E3-8FF FB50-FD3D FD40-FDCF FDF0-FDFF FE70-FE74 FE76-FEFC 10E60-10E7E 10EC2-10EC7
     10ED0-10ED8 10EFA-10EFF 1EE00-1EE03 1EE05-1EE1F 1EE21-1EE22 1EE24 1EE27 1EE29-1EE32
     1EE34-1EE37 1EE39 1EE3B 1EE42 1EE47 1EE49 1EE4B 1EE4D-1EE4F 1EE51-1EE52 1EE54 1EE57 1EE59
     1EE5B 1EE5D 1EE5F 1EE61-1EE62 1EE64 1EE67-1EE6A 1EE6C-1EE72 1EE74-1EE77 1EE79-1EE7C 1EE7E
     1EE80-1EE89 1EE8B-1EE9B 1EEA1-1EEA3 1EEA5-1EEA9 1EEAB-1EEBB 1EEF0-1EEF1"

/-- The Hebrew characters. -/
def hebrewRuns : List (Nat × Nat) :=
  readRuns
    "591-5C7 5D0-5EA 5EF-5F4 FB1D-FB36 FB38-FB3C FB3E FB40-FB41 FB43-FB44 FB46-FB4F"

/-- The Thai characters. -/
def thaiRuns : List (Nat × Nat) :=
  readRuns
    "E01-E3A E40-E5B"

/-- The Hangul characters. -/
def hangulRuns : List (Nat × Nat) :=
  readRuns
    "1100-11FF 302E-302F 3131-318E 3200-321E 3260-327E A960-A97C AC00-D7A3 D7B0-D7C6 D7CB-D7FB
     FFA0-FFBE FFC2-FFC7 FFCA-FFCF FFD2-FFD7 FFDA-FFDC"

/-- The Devanagari characters. -/
def devanagariRuns : List (Nat × Nat) :=
  readRuns
    "900-950 955-963 966-97F A8E0-A8FF 11B00-11B09"

/-- The Armenian characters. -/
def armenianRuns : List (Nat × Nat) :=
  readRuns
    "531-556 559-58A 58D-58F FB13-FB17"

/-- The Georgian characters. -/
def georgianRuns : List (Nat × Nat) :=
  readRuns
    "10A0-10C5 10C7 10CD 10D0-10FA 10FC-10FF 1C90-1CBA 1CBD-1CBF 2D00-2D25 2D27 2D2D"

/-- The Tamil characters. -/
def tamilRuns : List (Nat × Nat) :=
  readRuns
    "B82-B83 B85-B8A B8E-B90 B92-B95 B99-B9A B9C B9E-B9F BA3-BA4 BA8-BAA BAE-BB9 BBE-BC2 BC6-BC8
     BCA-BCD BD0 BD7 BE6-BFA 11FC0-11FF1 11FFF"

/-- The code points of a script. -/
def runs : Script → List (Nat × Nat)
  | latin => latinRuns
  | greek => greekRuns
  | cyrillic => cyrillicRuns
  | han => hanRuns
  | hiragana => hiraganaRuns
  | katakana => katakanaRuns
  | arabic => arabicRuns
  | hebrew => hebrewRuns
  | thai => thaiRuns
  | hangul => hangulRuns
  | devanagari => devanagariRuns
  | armenian => armenianRuns
  | georgian => georgianRuns
  | tamil => tamilRuns

end Script

/-- Is the character of the script? -/
def isOfScript (s : Script) (c : Char) : Bool := isInRuns s.runs c

/-- The combining marks that are alphabetic, such as vowel signs. -/
def alphabeticMarkRuns : List (Nat × Nat) :=
  readRuns
    "345 363-36F 5B0-5BD 5BF 5C1-5C2 5C4-5C5 5C7 610-61A 64B-657 659-65F 670 6D6-6DC 6E1-6E4
     6E7-6E8 6ED 711 730-73F 7A6-7B0 816-817 81B-823 825-827 829-82C 897 8D4-8DF 8E3-8E9 8F0-903
     93A-93B 93E-94C 94E-94F 955-957 962-963 981-983 9BE-9C4 9C7-9C8 9CB-9CC 9D7 9E2-9E3 A01-A03
     A3E-A42 A47-A48 A4B-A4C A51 A70-A71 A75 A81-A83 ABE-AC5 AC7-AC9 ACB-ACC AE2-AE3 AFA-AFC
     B01-B03 B3E-B44 B47-B48 B4B-B4C B56-B57 B62-B63 B82 BBE-BC2 BC6-BC8 BCA-BCC BD7 C00-C04
     C3E-C44 C46-C48 C4A-C4C C55-C56 C62-C63 C81-C83 CBE-CC4 CC6-CC8 CCA-CCC CD5-CD6 CE2-CE3 CF3
     D00-D03 D3E-D44 D46-D48 D4A-D4C D57 D62-D63 D81-D83 DCF-DD4 DD6 DD8-DDF DF2-DF3 E31 E34-E3A
     E4D EB1 EB4-EB9 EBB-EBC ECD F71-F83 F8D-F97 F99-FBC 102B-1036 1038 103B-103E 1056-1059
     105E-1060 1062-1064 1067-106D 1071-1074 1082-108D 108F 109A-109D 1712-1713 1732-1733
     1752-1753 1772-1773 17B6-17C8 1885-1886 18A9 1920-192B 1930-1938 1A17-1A1B 1A55-1A5E
     1A61-1A74 1ABF-1AC0 1ACC-1ACE 1B00-1B04 1B35-1B43 1B80-1B82 1BA1-1BA9 1BAC-1BAD 1BE7-1BF1
     1C24-1C36 1DD3-1DF4 2DE0-2DFF A674-A67B A69E-A69F A802 A80B A823-A827 A880-A881 A8B4-A8C3
     A8C5 A8FF A926-A92A A947-A952 A980-A983 A9B4-A9BF A9E5 AA29-AA36 AA43 AA4C-AA4D AA7B-AA7D
     AAB0 AAB2-AAB4 AAB7-AAB8 AABE AAEB-AAEF AAF5 ABE3-ABEA FB1E 10376-1037A 10A01-10A03
     10A05-10A06 10A0C-10A0F 10D24-10D27 10D69 10EAB-10EAC 10EFA-10EFC 11000-11002 11038-11045
     11073-11074 11080-11082 110B0-110B8 110C2 11100-11102 11127-11132 11145-11146 11180-11182
     111B3-111BF 111CE-111CF 1122C-11234 11237 1123E 11241 112DF-112E8 11300-11303 1133E-11344
     11347-11348 1134B-1134C 11357 11362-11363 113B8-113C0 113C2 113C5 113C7-113CA 113CC-113CD
     11435-11441 11443-11445 114B0-114C1 115AF-115B5 115B8-115BE 115DC-115DD 11630-1163E 11640
     116AB-116B5 1171D-1172A 1182C-11838 11930-11935 11937-11938 1193B-1193C 11940 11942
     119D1-119D7 119DA-119DF 119E4 11A01-11A0A 11A35-11A39 11A3B-11A3E 11A51-11A5B 11A8A-11A97
     11B60-11B67 11C2F-11C36 11C38-11C3E 11C92-11CA7 11CA9-11CB6 11D31-11D36 11D3A 11D3C-11D3D
     11D3F-11D41 11D43 11D47 11D8A-11D8E 11D90-11D91 11D93-11D96 11EF3-11EF6 11F00-11F01 11F03
     11F34-11F3A 11F3E-11F40 1611E-1612E 16F4F 16F51-16F87 16F8F-16F92 16FF0-16FF1 1BC9E
     1E000-1E006 1E008-1E018 1E01B-1E021 1E023-1E024 1E026-1E02A 1E08F 1E6E3 1E6E6 1E6EE-1E6EF
     1E6F5 1E947"

/-- Alphabetic characters. -/
def isAlphabetic (c : Char) : Bool := isLetterLike c || isInRuns alphabeticMarkRuns c

end TextAnalysis.Unicode
