import TextAnalysis.Stemming.Ending

/-!
# Hungarian stems

The stems of Hungarian words. Endings of cases, of possession and of the plural go one after the
other, all of them in the first region, which starts after the first consonant, or the group of
letters for one, of a word with an initial vowel, and after the first vowel of other words. A vowel
made long by an ending is written short again.
-/

set_option autoImplicit false

namespace TextAnalysis.Stemming.Hungarian

/-- The vowels. -/
def isVowel : Char → Bool := oneOf "aeiouáéíóöőúüű"

/-- Groups of letters that stand for one consonant. -/
def digraphs : List (List Char) := (Text.fields "dzs cs gy ly ny sz ty zs").map String.toList

/-- What follows the first consonant. -/
def pastConsonant? : List Char → Option (List Char)
  | [] => none
  | c :: rest =>
    if isVowel c then pastConsonant? rest
    else some ((digraphs.findSome? fun d => dropEnding? d (c :: rest)).getD rest)

/-- The regions of a word. There is no second one. -/
def regions (cs : List Char) : Regions :=
  let first :=
    match cs with
    | [] => none
    | c :: rest => if isVowel c then pastConsonant? rest else past? isVowel rest
  .ofParts cs none first none

/-- Endings in long consonants. -/
def double : Endings := .ofGroup
  "bb cc ccs dd ff gg ggy jj kk ll lly mm nn nny pp rr ss ssz tt tty vv zz zzs" remove

/-- A long consonant at the end is written short. -/
def undouble : Step := fun _ w =>
  match w with
  | c :: _ :: rest => some (c :: rest)
  | _ => none

/-- Leaves an ending off that follows a long consonant, which is then written short. -/
def dropAfterDouble : Step := fun g rest =>
  if (double.longest? 0 rest).isSome then some (perform undouble g rest) else none

/-- A long vowel at the end is written short. -/
def shorten : Endings := .ofGroups [("á", inR1 (replace "a")), ("é", inR1 (replace "e"))]

/-- The instrumental. -/
def instrumental : Endings := .ofGroup "al el" (inR1 dropAfterDouble)

/-- Endings of cases. -/
def caseEnding : Endings := .ofGroup
  "ban ben ba be ra re nak nek val vel tól től ról ről ból ből hoz hez höz nál nél ig at et ot öt
   ért képp képpen kor ul ül vá vé onként enként anként ként en on an ön n t"
  (inR1 (andThen remove shorten.step))

/-- Endings of cases after a vowel made long. -/
def caseAfterLong : Endings := .ofGroups
  [("én", inR1 (replace "e")), ("án", inR1 (replace "a")), ("ánként", inR1 (replace "a"))]

/-- Other endings of cases. -/
def otherCase : Endings := .ofGroups
  [("astul estül stul stül", inR1 remove), ("ástul", inR1 (replace "a")),
   ("éstül", inR1 (replace "e"))]

/-- The factive. -/
def factive : Endings := .ofGroup "á é" (inR1 dropAfterDouble)

/-- Endings of what is owned. -/
def owned : Endings := .ofGroups
  [("oké öké aké eké ké éi é", inR1 remove), ("éké ééi éé", inR1 (replace "e")),
   ("áké áéi", inR1 (replace "a"))]

/-- Endings for a single owner. -/
def singleOwner : Endings := .ofGroups
  [("ünk unk nk juk jük uk ük em om am m od ed ad öd d ja je a e o", inR1 remove),
   ("ánk ájuk ám ád á", inR1 (replace "a")), ("énk éjük ém éd é", inR1 (replace "e"))]

/-- Endings of several things that are owned. -/
def severalOwned : Endings := .ofGroups
  [("jaim jeim aim eim im jaid jeid aid eid id jai jei ai ei i jaink jeink eink aink ink jaitok
     jeitek aitok eitek itek jeik jaik aik eik ik", inR1 remove),
   ("áim áid ái áink áitok áik", inR1 (replace "a")),
   ("éim éid éi éink éitek éik", inR1 (replace "e"))]

/-- Endings of the plural. -/
def plural : Endings := .ofGroups
  [("ák", inR1 (replace "a")), ("ék", inR1 (replace "e")), ("ök ak ok ek k", inR1 remove)]

/-- The stem of a word. -/
def stem (word : List Char) : List Char :=
  (performAll
    [instrumental.step, caseEnding.step, caseAfterLong.step, otherCase.step, factive.step,
     owned.step, singleOwner.step, severalOwned.step, plural.step]
    (regions word) word.reverse).reverse

end TextAnalysis.Stemming.Hungarian
