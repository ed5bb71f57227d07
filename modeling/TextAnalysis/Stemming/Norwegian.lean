import TextAnalysis.Stemming.Ending

/-!
# Norwegian stems

The stems of Norwegian words: endings of inflection go, then those of derivation.
-/

set_option autoImplicit false

namespace TextAnalysis.Stemming.Norwegian

/-- The vowels. -/
def isVowel : Char → Bool := oneOf "aeiouyæåø"

/-- A final `s` goes after some consonants, and after a `k` that follows a consonant. -/
def finalS : Step := fun _ rest =>
  match rest with
  | c :: before =>
    if oneOf "bcdfghjlmnoprtvyz" c || (c == 'k' && headIs (fun b => !isVowel b) before)
    then some rest
    else none
  | [] => none

/-- Endings of inflection. -/
def inflection : Endings := .ofGroups
  [("a e ede ande ende ane ene hetene en heten ar er heter as es edes endes enes hetenes ens
     hetens ers ets et het ast", remove),
   ("s", finalS),
   ("erte ert", replace "er")]

/-- A group of two consonants loses the last one. -/
def consonantPair : Step :=
  (Endings.ofGroups [("dt", replace "d"), ("vt", replace "v")]).stepInR1

/-- Endings of derived words. -/
def derivation : Endings := .ofGroup
  "leg eleg ig eig lig elig els lov elov slov hetslov" remove

/-- The stem of a word. -/
def stem (word : List Char) : List Char :=
  (performAll [inflection.stepInR1, consonantPair, derivation.stepInR1]
    (Regions.germanic isVowel word) word.reverse).reverse

end TextAnalysis.Stemming.Norwegian
