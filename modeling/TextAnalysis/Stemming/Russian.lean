import TextAnalysis.Stemming.Ending

/-!
# Russian stems

The stems of Russian words. Everything happens after the first vowel. The ending of a gerund goes,
or else that of an adjective, a verb or a noun, the first of these that there is.
-/

set_option autoImplicit false

namespace TextAnalysis.Stemming.Russian

/-- The vowels. -/
def isVowel : Char → Bool := oneOf "аеиоуыэюя"

/-- The regions of a word. -/
def regions (cs : List Char) : Regions :=
  let verb := past? isVowel cs
  let first := verb.bind (past? fun c => !isVowel c)
  .ofParts cs verb first (first.bind (pastSyllable? isVowel))

/-- Only after `а` or `я` in the region. -/
def afterA : Step := fun g rest =>
  match rest with
  | c :: before => if oneOf "ая" c && decide (g.rv ≤ before.length) then some rest else none
  | [] => none

/-- Endings of gerunds. -/
def gerund : Endings := .ofGroups
  [("в вши вшись", afterA), ("ив ивши ившись ыв ывши ывшись", remove)]

/-- Endings of participles, which stand before those of adjectives. -/
def participle : Endings := .ofGroups
  [("ем нн вш ющ щ", afterA), ("ивш ывш ующ", remove)]

/-- Endings of adjectives. -/
def adjective : Endings := .ofGroup
  "ее ие ые ое ими ыми ей ий ый ой ем им ым ом его ого ему ому их ых ую юю ая яя ою ею" remove

/-- The reflexive ending. -/
def reflexive : Endings := .ofGroup "ся сь" remove

/-- Endings of verbs. -/
def verb : Endings := .ofGroups
  [("ла на ете йте ли й л ем н ло но ет ют ны ть ешь нно", afterA),
   ("ила ыла ена ейте уйте ите или ыли ей уй ил ыл им ым ен ило ыло ено ят ует уют ит ыт ены ить
     ыть ишь ую ю", remove)]

/-- Endings of nouns. -/
def noun : Endings := .ofGroup
  "а ев ов ие ье е иями ями ами еи ии и ией ей ой ий й иям ям ием ем ам ом о у ах иях ях ы ь ию ью
   ю ия ья я" remove

/-- The inflection of a word that is no gerund. -/
def inflection : Step := fun g w =>
  orElse (andThen adjective.stepInRV participle.stepInRV) (orElse verb.stepInRV noun.stepInRV) g
    (perform reflexive.stepInRV g w)

/-- The reflexive ending goes even where no other ending is found. -/
def inflect (g : Regions) (w : Back) : Back :=
  match gerund.stepInRV g w with
  | some found => found
  | none => (inflection g w).getD (perform reflexive.stepInRV g w)

/-- Endings of derived words. -/
def derivation : Endings := .ofGroup "ост ость" (inR2 remove)

/-- The second `н` at the end goes. -/
def doubleN : Step := fun g w =>
  match w with
  | 'н' :: 'н' :: rest => if g.rv ≤ rest.length then some ('н' :: rest) else none
  | _ => none

/-- Endings of superlatives, a doubled `н` and a soft sign. -/
def leftover : Endings := .ofGroups
  [("ейш ейше", andThen remove doubleN),
   ("н", fun g before =>
      match before with
      | 'н' :: more => if g.rv ≤ more.length then some before else none
      | _ => none),
   ("ь", remove)]

/-- The stem of a word. -/
def stem (word : List Char) : List Char :=
  let g := regions word
  let w := inflect g word.reverse
  let w := perform (Endings.ofGroup "и" remove).stepInRV g w
  (performAll [derivation.stepInRV, leftover.stepInRV] g w).reverse

end TextAnalysis.Stemming.Russian
