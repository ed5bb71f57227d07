import TextAnalysis.Stemming.Ending

/-!
# Dutch stems

The stems of Dutch words. Accents are dropped first, apart from the grave one; `i` between vowels
and `y` at the start or after a vowel are consonants. An ending that goes may leave a doubled
consonant behind, which is then written once, and so is a vowel doubled in a closed last syllable.
-/

set_option autoImplicit false

namespace TextAnalysis.Stemming.Dutch

/-- The vowels. -/
def isVowel : Char → Bool := oneOf "aeiouyè"

/-- Letters with accents that are dropped. -/
def accented : List (Char × Char) :=
  [('ä', 'a'), ('á', 'a'), ('ë', 'e'), ('é', 'e'), ('ï', 'i'), ('í', 'i'), ('ö', 'o'), ('ó', 'o'),
   ('ü', 'u'), ('ú', 'u')]

/-- Marks `i` between vowels and `y` after a vowel as consonants. -/
def markConsonants (afterVowel : Bool) : List Char → List Char
  | [] => []
  | c :: rest =>
    if afterVowel && c == 'i' && headIs isVowel rest then 'I' :: markConsonants false rest
    else if afterVowel && c == 'y' then 'Y' :: markConsonants false rest
    else c :: markConsonants (isVowel c) rest

/-- A word without accents, its consonants marked. -/
def prepare (word : List Char) : List Char :=
  match respell accented word with
  | 'y' :: rest => 'Y' :: markConsonants false rest
  | cs => markConsonants false cs

/-- The regions of a word. At least three letters come before the first region, unless one of the
first two takes up the space of two. -/
def regions (cs : List Char) : Regions :=
  let g := Regions.standard isVowel cs
  if g.r1 < 3 && (cs.take g.r1).all (fun c => c.utf8Size == 1) then { g with r1 := 3 } else g

/-- A doubled consonant at the end is written once. -/
def undouble : Step := fun _ w =>
  match w with
  | c :: d :: rest => if c = d && oneOf "kdt" c then some (d :: rest) else none
  | _ => none

/-- Is the letter no vowel? -/
def isConsonant (c : Char) : Bool := !isVowel c

/-- What happens to an ending in `en`: it goes after a consonant, but not after `gem`. -/
def dropEn : Step :=
  inR1 (after isConsonant fun g rest =>
    if endsWith "gem" rest then none else some (perform undouble g rest))

/-- A final `e` goes after a consonant. -/
def finalE : Step := removing "e" (inR1 (after isConsonant (andThen remove undouble)))

/-- Is there a final `e` that goes? -/
def hasFinalE (g : Regions) (w : Back) : Bool := (finalE g w).isSome

/-- Endings of the plural. -/
def plural : Endings := .ofGroups
  [("heden", inR1 (replace "heid")), ("en ene", dropEn),
   ("s se", inR1 (after (fun c => isConsonant c && c != 'j') remove))]

/-- The ending `heid`, and `en` before it. -/
def heid : Step :=
  removing "heid" (inR2 fun g rest =>
    if headIs (· == 'c') rest then none else some (perform (removing "en" dropEn) g rest))

/-- Only where no `e` comes before the ending. -/
def notAfterE (s : Step) : Step := fun g rest => if headIs (· == 'e') rest then none else s g rest

/-- Endings of derived words; `bar` goes only where a final `e` went before. -/
def derivation (lostE : Bool) : Endings := .ofGroups
  [("end ing", inR2 (andThen remove (orElse (removing "ig" (inR2 (notAfterE remove))) undouble))),
   ("ig", inR2 (notAfterE remove)),
   ("lijk", inR2 (andThen remove finalE)),
   ("baar", inR2 remove),
   ("bar", inR2 (if lostE then remove else keep))]

/-- The endings of derived words where no final `e` went before. -/
def plainDerivation : Endings := derivation false

/-- The endings of derived words where a final `e` went before. -/
def shortenedDerivation : Endings := derivation true

/-- A doubled vowel before a last consonant is written once. -/
def closedSyllable : Step := fun _ w =>
  match w with
  | c :: v :: u :: b :: rest =>
    if isConsonant c && c != 'I' && v = u && oneOf "aeou" v && isConsonant b then
      some (c :: v :: b :: rest)
    else none
  | _ => none

/-- The stem of a word. -/
def stem (word : List Char) : List Char :=
  let marked := prepare word
  let g := regions marked
  let w := perform plural.step g marked.reverse
  let lostE := hasFinalE g w
  let w := performAll [finalE, heid] g w
  let w := perform (if lostE then shortenedDerivation else plainDerivation).step g w
  let w := perform closedSyllable g w
  respell [('Y', 'y'), ('I', 'i')] w.reverse

end TextAnalysis.Stemming.Dutch
