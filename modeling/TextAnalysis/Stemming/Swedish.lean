import TextAnalysis.Stemming.Ending

/-!
# Swedish stems

The stems of Swedish words: endings of inflection go, then those of derivation.
-/

set_option autoImplicit false

namespace TextAnalysis.Stemming.Swedish

/-- The vowels. -/
def isVowel : Char → Bool := oneOf "aeiouyäåö"

/-- Endings of inflection. -/
def inflection : Endings := .ofGroups
  [("a arna erna heterna orna ad e ade ande arne are aste en anden aren heten ern ar er heter or as
     arnas ernas ornas es ades andes ens arens hetens erns at andet het ast", remove),
   ("s", after (oneOf "bcdfghjklmnoprtvy") remove)]

/-- A group of two consonants loses the last one. -/
def consonantPair : Step :=
  (Endings.ofGroups
    [("dd", replace "d"), ("gd", replace "g"), ("nn", replace "n"), ("dt", replace "d"),
     ("gt", replace "g"), ("kt", replace "k"), ("tt", replace "t")]).stepInR1

/-- Endings of derived words. -/
def derivation : Endings := .ofGroups
  [("lig ig els", remove), ("löst", replace "lös"), ("fullt", replace "full")]

/-- The stem of a word. -/
def stem (word : List Char) : List Char :=
  (performAll [inflection.stepInR1, consonantPair, derivation.stepInR1]
    (Regions.germanic isVowel word) word.reverse).reverse

end TextAnalysis.Stemming.Swedish
