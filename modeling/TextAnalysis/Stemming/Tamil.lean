import TextAnalysis.Stemming.Ending

/-!
# Tamil stems

The stems of Tamil words. Prefixes of questions and pronouns go, then the suffixes of questions,
particles, words that have grown together with the one before, cases, plurals, commands and tenses.
When a suffix has gone, the sounds at the end that it had changed are put right.
-/

set_option autoImplicit false

namespace TextAnalysis.Stemming.Tamil

/-- The virama, which tells that no vowel follows a consonant. -/
def isVirama (c : Char) : Bool := c.toNat == 0xBCD

/-- The signs of most vowels. -/
def isSign : Char → Bool :=
  let signs := [0xBBE, 0xBBF, 0xBC0, 0xBC1, 0xBC2, 0xBC6, 0xBC7, 0xBC8]
  fun c => signs.contains c.toNat

/-- The sign of the vowel `ai`. -/
def isAi (c : Char) : Bool := c.toNat == 0xBC8

/-- The stops. -/
def isStop : Char → Bool := oneOf "கசடதபற"

/-- The nasals and approximants. -/
def isSonorant : Char → Bool := oneOf "யரலவழளஙஞணநமன"

/-- The letters for vowels. -/
def isVowelLetter : Char → Bool := oneOf "அஆஇஈஉஊஎஏஐஒஓஔ"

/-- Only where no letter of a kind comes before the ending. -/
def notAfter (kind : Char → Bool) (s : Step) : Step := fun g rest =>
  if headIs kind rest then none else s g rest

/-- Is the word long enough to lose a suffix? -/
def isLong (w : List Char) : Bool := 4 < w.length

/-! ## The end of a word -/

/-- Ends of words and how they are put right. -/
def ends : Endings := .ofGroups
  [("ந்த ய வ ந்த் ந் வ்", remove),
   ("ய்", after (fun c => oneOf "ிீை" c) remove),
   ("ட்க் ட்ப்", replace "ள்"), ("ற்க் ன்ற்", replace "ல்"), ("ட்ட்", replace "டு"),
   ("ுக் ுக்க்", replace "்"), ("னு", notAfter isSign remove),
   ("ங்", fun g rest =>
      if headIs isAi rest || headIs isVirama rest then some rest else replace "ம்" g rest)]

/-- A doubled dental at the end of a word that has lost the suffix of a case. -/
def dental : Step := removing "த்த்" (notAfter isAi (replace "ம்"))

/-- A consonant without a vowel at the end. -/
def finalConsonant : Step := fun _ w =>
  match w with
  | v :: c :: rest =>
    if !isVirama v then none
    else if isStop c then
      match rest with
      | u :: b :: more => if isVirama u && isStop b then some more else some rest
      | _ => some rest
    else if isSonorant c && headIs isVirama rest then some rest
    else if isSign c || isVirama c then some (c :: rest)
    else none
  | _ => none

/-- Puts the end of a word right. `case` tells that it has lost the suffix of a case. -/
def fixEnd (lostCase : Bool) : Step := fun g w =>
  if 3 < w.length then
    orElse (if lostCase then orElse dental ends.step else ends.step) finalConsonant g w
  else none

/-- Puts the end of a word right as long as there is something wrong, at most so many times. -/
def fixEnds (lostCase : Bool) : Nat → Back → Back
  | 0, w => w
  | n + 1, w =>
    match fixEnd lostCase Regions.whole w with
    | some fixed => fixEnds lostCase n fixed
    | none => w

/-- Puts the end of a word right. -/
def fixAll (lostCase : Bool) (w : Back) : Back := fixEnds lostCase (2 * w.length) w

/-! ## Prefixes -/

/-- A vowel after an initial `v` is written with its own letter. -/
def fixStart : List Char → List Char
  | 'வ' :: sign :: rest =>
    match [('ோ', 'ஓ'), ('ொ', 'ஒ'), ('ு', 'உ'), ('ூ', 'ஊ')].lookup sign with
    | some letter => letter :: rest
    | none => 'வ' :: sign :: rest
  | cs => cs

/-- Takes a prefix off that is one of the given letters with a consonant doubled after it. -/
def dropPrefix (letters : String) (cs : List Char) : List Char :=
  match cs with
  | a :: c :: v :: rest =>
    if oneOf letters a && oneOf "கசதவநபமயஙஞ" c && isVirama v then fixStart rest else cs
  | _ => cs

/-! ## Suffixes -/

/-- Suffixes of questions. -/
def question : Endings := .ofGroup "ா ே ோ" (replace "்")

/-- The suffix that adds or includes. -/
def particle : Endings := .ofGroup "ும்" (replace "்")

/-- Words that have grown together with the one before. -/
def attached : Endings := .ofGroups
  [("ுடன் ில்லை ிடம் ின்றி ாகி ாகிய ென்று ுள்ள ுடைய ுடை ெனும் ென", replace "்"),
   ("ல்ல", notAfter isSign (replace "்")),
   ("படு பட்ட பட்டு பட்டது பட்டண் குரிய பற்றி விடு விட்டு விட்டது படி தான் செய்", remove)]

/-- Suffixes of cases. -/
def caseEnding : Endings := .ofGroups
  [("னை கண் முன் மேல் மேற் கீழ் பின்", remove),
   ("ொடு ோடு ில் ிற் ின்று ிருந்து விட ால் ுடன் ாமல் ுள்", replace "்"),
   ("ின்", notAfter (· == 'ம') (replace "்")),
   ("ிடம்", fun g rest => if 3 ≤ rest.length then replace "்" g rest else none),
   ("ல்", notAfter isSign (replace "்")),
   ("து", notAfter isSign remove),
   ("ீ", replace "ி")]

/-- The accusative. -/
def accusative : Step := removing "ை" fun g rest =>
  match rest with
  | c :: before => if isStop c && !headIs isVirama before then none else replace "்" g rest
  | [] => replace "்" g rest

/-- The suffix that stands between a noun and the suffix of a case. -/
def linking : Step := removing "ின்" (replace "்")

/-- Suffixes of the plural. -/
def plural : Endings := .ofGroups
  [("ுங்கள்", fun g rest =>
      if headIs isStop rest then replace "ுங்" g rest else replace "்" g rest),
   ("ற்கள்", replace "ல்"), ("ட்கள்", replace "ள்"), ("கள்", remove)]

/-- Suffixes of commands. -/
def command : Endings := .ofGroup "பி வி" remove

/-- Suffixes of tenses and persons. -/
def tense : Endings := .ofGroups
  [("கொண்டிர் படு மார் மின் னன் னான் னாள் னார் னள் வள் னர் வர் ன ப க த ய பன் பள் பர் ிற்று பம் னம்
     தும் றும் கும் னென் னை வை", remove),
   ("வன்", notAfter isVowelLetter remove), ("து", notAfter isSign remove),
   ("ான்", notAfter (· == 'ச') (replace "்")),
   ("ாள் ார் ேன் ா ாம் ெம் ேம் ோம் டும் ாய் னிர் ீர் ீயர்", replace "்"),
   ("கு", after isVirama remove)]

/-- Marks of the present. -/
def present : Endings := .ofGroup "கிற கின்ற ாநின்ற கிற் கின்ற் ாநின்ற்" remove

/-- A step on words that are long enough. -/
def whereLong (s : Step) : Step := fun g w => if isLong w then s g w else none

/-- Takes suffixes of tenses off as long as there are any, at most so many times. -/
def dropTenses (lostCase : Bool) : Nat → Back → Back
  | 0, w => w
  | n + 1, w =>
    if isLong w then
      let g := Regions.whole
      let shorter := tense.step g w
      let last := present.step g (shorter.getD w)
      let fixed := fixAll lostCase (last.getD (shorter.getD w))
      if shorter.isSome || last.isSome then dropTenses lostCase n fixed else fixed
    else w

/-- Takes the suffixes off a word without prefixes. -/
def dropSuffixes (w : Back) : Back :=
  let g := Regions.whole
  let w := if isLong w then fixAll false (perform question.step g w) else w
  let w :=
    match whereLong particle.step g w with
    | some rest => perform (fixEnd false) g rest
    | none => w
  let w :=
    match whereLong attached.step g w with
    | some rest => fixAll false rest
    | none => w
  let cased := whereLong (orElse caseEnding.step accusative) g w
  let lostCase := cased.isSome
  let w :=
    match cased with
    | some rest => fixAll true (perform linking g rest)
    | none => w
  let w := performAll [plural.step, whereLong command.step] g w
  dropTenses lostCase (2 * w.length) w

/-- The stem of a word. -/
def stem (word : List Char) : List Char :=
  let cs := (perform (fixEnd false) Regions.whole word.reverse).reverse
  if isLong cs then (dropSuffixes (dropPrefix "அஇஉ" (dropPrefix "எ" cs)).reverse).reverse else cs

end TextAnalysis.Stemming.Tamil
