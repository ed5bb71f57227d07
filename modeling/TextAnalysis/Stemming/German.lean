import TextAnalysis.Stemming.Ending

/-!
# German stems

The stems of German words. A sharp s is written as two letters, and umlauts lose their dots in the
end; `u` and `y` between vowels are consonants.
-/

set_option autoImplicit false

namespace TextAnalysis.Stemming.German

/-- The vowels. -/
def isVowel : Char → Bool := oneOf "aeiouyäöü"

/-- Writes a sharp s as two letters. -/
def splitSharp (cs : List Char) : List Char :=
  cs.flatMap fun c => if c = 'ß' then ['s', 's'] else [c]

/-- A doubled `s` loses one letter in the ending `niss`. -/
def niss : Step := removing "niss" (replace "nis")

/-- Endings of inflection. -/
def inflection : Endings := .ofGroups
  [("em ern er", inR1 remove), ("e en es", inR1 (andThen remove niss)),
   ("s", inR1 (after (oneOf "bdfghklmnrt") remove))]

/-- Endings of comparison and of verbs. A final `st` goes where three letters and one more stand
before it. -/
def comparison : Endings := .ofGroups
  [("en er est", inR1 remove),
   ("st", inR1 (after (oneOf "bdfghklmnt") fun _ rest =>
      if 4 ≤ rest.length then some rest else none))]

/-- Only where no `e` comes before the ending. -/
def notAfterE (s : Step) : Step := fun g rest => if headIs (· == 'e') rest then none else s g rest

/-- Endings of derived words. -/
def derivation : Endings := .ofGroups
  [("end ung", inR2 (andThen remove (removing "ig" (notAfterE (inR2 remove))))),
   ("ig ik isch", inR2 (notAfterE remove)),
   ("lich heit", inR2 (andThen remove (Endings.ofGroup "er en" (inR1 remove)).step)),
   ("keit", inR2 (andThen remove (Endings.ofGroup "lich ig" (inR2 remove)).step))]

/-- The stem of a word. -/
def stem (word : List Char) : List Char :=
  let marked := markBetween isVowel [('u', 'U'), ('y', 'Y')] false (splitSharp word)
  let g := Regions.germanic isVowel marked
  let w := performAll [inflection.step, comparison.step, derivation.step] g marked.reverse
  respell [('Y', 'y'), ('U', 'u'), ('ä', 'a'), ('ö', 'o'), ('ü', 'u')] w.reverse

end TextAnalysis.Stemming.German
