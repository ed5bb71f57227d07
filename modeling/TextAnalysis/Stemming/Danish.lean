import TextAnalysis.Stemming.Ending

/-!
# Danish stems

The stems of Danish words: endings of inflection go, then those of derivation, and a doubled
consonant at the end is written once.
-/

set_option autoImplicit false

namespace TextAnalysis.Stemming.Danish

/-- The vowels. -/
def isVowel : Char → Bool := oneOf "aeiouyæåø"

/-- Endings of inflection. -/
def inflection : Endings := .ofGroups
  [("hed ethed ered e erede ende erende ene erne ere en heden eren er heder erer heds es endes
     erendes enes ernes eres ens hedens erens ers ets erets et eret", remove),
   ("s", after (oneOf "abcdfghjklmnoprtvyzå") remove)]

/-- A group of two consonants loses the last one. -/
def consonantPair : Step :=
  (Endings.ofGroups
    [("gd", replace "g"), ("dt", replace "d"), ("gt", replace "g"), ("kt", replace "k")]).stepInR1

/-- The ending `igst` loses `st`. -/
def superlative : Step := removing "igst" (replace "ig")

/-- Endings of derived words. -/
def derivation : Endings := .ofGroups
  [("ig lig elig els", andThen remove consonantPair), ("løst", replace "løs")]

/-- A doubled consonant at the end is written once, where its last letter is in the first region. -/
def undouble : Step := fun g w =>
  match w with
  | c :: d :: rest =>
    if !isVowel c && c = d && g.r1 ≤ rest.length + 1 then some (d :: rest) else none
  | _ => none

/-- The stem of a word. -/
def stem (word : List Char) : List Char :=
  (performAll
    [inflection.stepInR1, consonantPair, superlative, derivation.stepInR1, undouble]
    (Regions.germanic isVowel word) word.reverse).reverse

end TextAnalysis.Stemming.Danish
