import TextAnalysis.Stemming.Ending

/-!
# English stems

The stems of English words. A `y` that stands for a consonant is written `Y` in between; some words
are irregular, and others look as if they had an ending though they have none.
-/

set_option autoImplicit false

namespace TextAnalysis.Stemming.English

/-- The vowels. -/
def isVowel : Char → Bool := oneOf "aeiouy"

/-- Words whose stem follows no rule, with their stem. -/
def irregular : List (String × String) :=
  [("skis", "ski"), ("skies", "sky"), ("dying", "die"), ("lying", "lie"), ("tying", "tie"),
   ("idly", "idl"), ("gently", "gentl"), ("ugly", "ugli"), ("early", "earli"), ("only", "onli"),
   ("singly", "singl"), ("sky", "sky"), ("news", "news"), ("howe", "howe"), ("atlas", "atlas"),
   ("cosmos", "cosmos"), ("bias", "bias"), ("andes", "andes")]

/-- Words that keep what looks like an ending. -/
def kept : List Back :=
  (Text.fields "inning outing canning herring earring proceed exceed succeed").map
    fun s => s.toList.reverse

/-- Writes `Y` for every `y` that comes first or after a vowel. -/
def markConsonants (afterVowel : Bool) : List Char → List Char
  | [] => []
  | c :: rest =>
    if c = 'y' && afterVowel then 'Y' :: markConsonants false rest
    else c :: markConsonants (isVowel c) rest

/-- Beginnings after which the first region starts though they end otherwise than usual. -/
def heads : List (List Char) := (Text.fields "gener commun arsen").map String.toList

/-- The part of a word that is its first region. -/
def firstPart? (cs : List Char) : Option (List Char) :=
  match heads.findSome? fun h => dropEnding? h cs with
  | some rest => some rest
  | none => pastSyllable? isVowel cs

/-- The regions of a word. -/
def regions (cs : List Char) : Regions :=
  let first := firstPart? cs
  .ofParts cs none first (first.bind (pastSyllable? isVowel))

/-- Does a word end in a short syllable? -/
def endsShort : Back → Bool
  | [c, v] => !isVowel c && isVowel v
  | c :: v :: b :: _ => !(isVowel c || oneOf "wxY" c) && isVowel v && !isVowel b
  | _ => false

/-- Genitive endings. -/
def genitive : Endings := .ofGroup "' 's 's'" remove

/-- The `i` of a stem in `y`, with an `e` where the stem would be too short. -/
def foldI : Step := fun _ rest =>
  some (if 2 ≤ rest.length then 'i' :: rest else 'e' :: 'i' :: rest)

/-- Plural endings. A final `s` goes after a vowel, if there is a letter in between. -/
def plural : Endings := .ofGroups
  [("sses", replace "ss"),
   ("ied ies", foldI),
   ("s", fun _ rest => if (rest.drop 1).any isVowel then some rest else none),
   ("us ss", keep)]

/-- What is mended in a stem of a verb: an `e` comes back, or a doubled consonant goes. -/
def mendings : Endings := .ofGroups
  [("at", replace "ate"), ("bl", replace "ble"), ("iz", replace "ize"),
   ("bb", replace "b"), ("dd", replace "d"), ("ff", replace "f"), ("gg", replace "g"),
   ("mm", replace "m"), ("nn", replace "n"), ("pp", replace "p"), ("rr", replace "r"),
   ("tt", replace "t")]

/-- Mends the stem of a verb. A short word gets its `e` back. -/
def mend (g : Regions) (w : Back) : Back :=
  match mendings.step g w with
  | some mended => mended
  | none => if w.length = g.r1 && endsShort w then 'e' :: w else w

/-- Endings of verbs. -/
def verb : Endings := .ofGroups
  [("eed eedly", inR1 (replace "ee")),
   ("ed edly ing ingly", fun g rest => if rest.any isVowel then some (mend g rest) else none)]

/-- A final `y` after a consonant turns into `i`, unless the word has but two letters. -/
def finalY : Step := fun _ w =>
  match w with
  | y :: c :: b :: rest => if oneOf "yY" y && !isVowel c then some ('i' :: c :: b :: rest) else none
  | _ => none

/-- Endings of derived words that have a shorter form. -/
def derived : Endings := .ofGroups
  [("tional", inR1 (replace "tion")), ("enci", inR1 (replace "ence")),
   ("anci", inR1 (replace "ance")), ("abli", inR1 (replace "able")),
   ("entli", inR1 (replace "ent")), ("izer ization", inR1 (replace "ize")),
   ("ational ation ator", inR1 (replace "ate")), ("alism aliti alli", inR1 (replace "al")),
   ("fulness", inR1 (replace "ful")), ("ousli ousness", inR1 (replace "ous")),
   ("iveness iviti", inR1 (replace "ive")), ("biliti bli", inR1 (replace "ble")),
   ("ogi", inR1 (after (· == 'l') (replace "og"))), ("fulli", inR1 (replace "ful")),
   ("lessli", inR1 (replace "less")), ("li", inR1 (after (oneOf "cdeghkmnrt") remove))]

/-- Endings of adjectives and nouns. -/
def adjective : Endings := .ofGroups
  [("tional", inR1 (replace "tion")), ("ational", inR1 (replace "ate")),
   ("alize", inR1 (replace "al")), ("icate iciti ical", inR1 (replace "ic")),
   ("ful ness", inR1 remove), ("ative", inR1 (inR2 remove))]

/-- Endings that go where enough is left. -/
def residual : Endings := .ofGroups
  [("al ance ence er ic able ible ant ement ment ent ism ate iti ous ive ize", inR2 remove),
   ("ion", inR2 (after (oneOf "st") remove))]

/-- A final `e` or a doubled `l`. -/
def final : Endings := .ofGroups
  [("e", orElse (inR2 remove)
      (inR1 fun _ rest => if endsShort rest then none else some rest)),
   ("l", inR2 (after (· == 'l') remove))]

/-- The stem of a word of three letters or more that is not irregular. -/
def stemRegular (word : List Char) : List Char :=
  let bare := match word with
    | '\'' :: rest => rest
    | _ => word
  let marked := markConsonants true bare
  let g := regions marked
  let w := performAll [genitive.step, plural.step] g marked.reverse
  let w := if kept.contains w then w
    else performAll [verb.step, finalY, derived.step, adjective.step, residual.step, final.step] g w
  if marked = bare then w.reverse else respell [('Y', 'y')] w.reverse

/-- The stem of a word. -/
def stem (word : List Char) : List Char :=
  match irregular.lookup (String.ofList word) with
  | some s => s.toList
  | none => if word.length < 3 then word else stemRegular word

end TextAnalysis.Stemming.English
