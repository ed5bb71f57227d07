import TextAnalysis.Stemming.Ending

/-!
# Finnish stems

The stems of Finnish words: particles go first, then possessive endings, endings of cases, other
endings and marks of the plural, and what is left is tidied up. The first region starts after the
first consonant after a vowel, the second likewise after it.
-/

set_option autoImplicit false

namespace TextAnalysis.Stemming.Finnish

/-- The vowels. -/
def isVowel : Char → Bool := oneOf "aeiouyäö"

/-- The vowels without `y`. -/
def isFullVowel : Char → Bool := oneOf "aeiouäö"

/-- Does a word end in a long vowel, both letters of which are left when so many letters are? -/
def endsLong (least : Nat) : Back → Bool
  | v :: u :: rest => v == u && oneOf "aeiouäö" v && decide (least ≤ rest.length)
  | _ => false

/-- Particles, which follow a vowel or one of two consonants, and the ending of adverbs. -/
def particle : Endings := .ofGroups
  [("kin kaan kään ko kö han hän pa pä",
    after (fun c => isVowel c || oneOf "nt" c) remove),
   ("sti", inR2 remove)]

/-- Only after one of the given endings. -/
def afterEnding (endings : String) : Step :=
  let table := Endings.ofGroup endings remove
  fun _ rest => if (table.longest? 0 rest).isSome then some rest else none

/-- Possessive endings. -/
def possessive : Endings := .ofGroups
  [("si", fun _ rest => if headIs (· == 'k') rest then none else some rest),
   ("ni", andThen remove (removing "kse" (replace "ksi"))),
   ("nsa nsä mme nne", remove),
   ("an", afterEnding "ta ssa sta lla lta na"),
   ("än", afterEnding "tä ssä stä llä ltä nä"),
   ("en", afterEnding "lle ine")]

/-- Does a word end in a full vowel and an `i`, both of which are left when so many letters are? -/
def endsInI (least : Nat) : Back → Bool
  | i :: v :: rest => i == 'i' && isFullVowel v && decide (least ≤ rest.length)
  | _ => false

/-- Endings of cases that count only after a vowel and an `i`. -/
def afterI : Endings := .ofGroup "siin den tten" fun g rest =>
  if endsInI g.r1 rest then some rest else none

/-- The ending of a case that counts only after a long vowel. -/
def afterLong : Endings := .ofGroup "seen" fun g rest =>
  if endsLong g.r1 rest then some rest else none

/-- A final `n` takes the second letter of a long vowel, or the `e` of `ie`, with it. -/
def finalN : Step := fun _ rest =>
  if endsLong 0 rest || endsWith "ie" rest then some (rest.drop 1) else some rest

/-- A final vowel goes after a vowel that follows a consonant. -/
def partitive : Step := fun _ rest =>
  match rest with
  | v :: c :: _ => if isVowel v && !isVowel c then some rest else none
  | _ => none

/-- The other endings of cases. -/
def otherCases : Endings := .ofGroups
  [("han", after (· == 'a') remove), ("hen", after (· == 'e') remove),
   ("hin", after (· == 'i') remove), ("hon", after (· == 'o') remove),
   ("hän", after (· == 'ä') remove), ("hön", after (· == 'ö') remove),
   ("n", finalN), ("a ä", partitive), ("tta ttä", after (· == 'e') remove),
   ("ta tä ssa ssä sta stä lla llä lta ltä lle na nä ksi ine", remove)]

/-- Takes off the ending of a case. -/
def caseEnding : Step := orElse afterI.stepInR1 (orElse afterLong.stepInR1 otherCases.stepInR1)

/-- Only where the ending does not follow `po`. -/
def notAfterPo : Step := fun _ rest => if endsWith "po" rest then none else some rest

/-- Endings of comparison, and of those who do something. -/
def other : Endings := .ofGroups
  [("mpi mpa mpä mmi mma mmä", notAfterPo),
   ("impi impa impä immi imma immä eja ejä", remove)]

/-- The mark of the plural that is left when the ending of a case has gone. -/
def pluralI : Endings := .ofGroup "i j" remove

/-- Endings of comparison before the mark of the plural. -/
def pluralComparison : Endings := .ofGroups [("mma", notAfterPo), ("imma", remove)]

/-- The mark of the plural after a vowel, and the ending of comparison before it. -/
def pluralT : Step := fun g w =>
  match w with
  | 't' :: v :: rest =>
    if isVowel v && decide (g.r1 ≤ rest.length) then
      some (perform pluralComparison.stepInR2 g (v :: rest))
    else none
  | _ => none

/-- A long vowel at the end is written short. -/
def shorten : Step := fun g w => if endsLong g.r1 w then some (w.drop 1) else none

/-- A final vowel goes after a consonant. -/
def dropVowel : Step := fun g w =>
  match w with
  | v :: c :: rest =>
    if oneOf "aäei" v && !isVowel c && decide (g.r1 ≤ rest.length) then some (c :: rest) else none
  | _ => none

/-- A final `j` goes after `o` and `u`. -/
def dropJ : Step := fun g w =>
  match w with
  | 'j' :: v :: rest =>
    if oneOf "ou" v && decide (g.r1 ≤ rest.length) then some (v :: rest) else none
  | _ => none

/-- A final `o` goes after `j`. -/
def dropO : Step := fun g w =>
  match w with
  | 'o' :: 'j' :: rest => if g.r1 ≤ rest.length then some ('j' :: rest) else none
  | _ => none

/-- The last consonant is written once. -/
def undouble : Back → Back
  | [] => []
  | c :: rest =>
    if isVowel c then c :: undouble rest
    else if headIs (· == c) rest then rest
    else c :: rest

/-- Tidies up what is left. -/
def tidy : Step := fun g w =>
  if g.r1 ≤ w.length then some (undouble (performAll [shorten, dropVowel, dropJ, dropO] g w))
  else none

/-- The stem of a word. -/
def stem (word : List Char) : List Char :=
  let g := Regions.standard isVowel word
  let w := performAll [particle.stepInR1, possessive.stepInR1] g word.reverse
  let cased := caseEnding g w
  let w := perform other.stepInR2 g (cased.getD w)
  let w := perform (if cased.isSome then pluralI.stepInR1 else pluralT) g w
  (perform tidy g w).reverse

end TextAnalysis.Stemming.Finnish
