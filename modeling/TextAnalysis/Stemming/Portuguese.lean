import TextAnalysis.Stemming.Ending

/-!
# Portuguese stems

The stems of Portuguese words. Vowels with a tilde are taken for a vowel and a consonant while a
word is stemmed. A usual ending or one of a verb goes first, or else a final vowel.
-/

set_option autoImplicit false

namespace TextAnalysis.Stemming.Portuguese

/-- The vowels without a tilde. -/
def isVowel : Char → Bool := oneOf "aeiouáéíóúâêô"

/-- Writes the tildes after their vowels. -/
def splitTildes (cs : List Char) : List Char :=
  cs.flatMap fun c => if c = 'ã' then ['a', '~'] else if c = 'õ' then ['o', '~'] else [c]

/-- Writes the tildes over their vowels. -/
def joinTildes : List Char → List Char
  | [] => []
  | c :: rest =>
    match joinTildes rest with
    | '~' :: joined =>
      if c = 'a' then 'ã' :: joined else if c = 'o' then 'õ' :: joined else c :: '~' :: joined
    | joined => c :: joined

/-- The ending `at` in the second region. -/
def dropAt : Step := removing "at" (inR2 remove)

/-- Endings before `amente`. -/
def beforeAmente : Endings := .ofGroups
  [("iv", inR2 (andThen remove dropAt)), ("os ic ad", inR2 remove)]

/-- The usual endings. -/
def usual : Endings := .ofGroups
  [("eza ezas ico ica icos icas ismo ismos ável ível ista istas oso osa osos osas amento amentos
     imento imentos adora ador aça~o adoras adores aço~es ante antes ância", inR2 remove),
   ("logía logías", inR2 (replace "log")),
   ("ución uciones", inR2 (replace "u")),
   ("ência ências", inR2 (replace "ente")),
   ("amente", inR1 (andThen remove beforeAmente.step)),
   ("mente", inR2 (andThen remove (Endings.ofGroup "ante avel ível" (inR2 remove)).step)),
   ("idade idades", inR2 (andThen remove (Endings.ofGroup "abil ic iv" (inR2 remove)).step)),
   ("iva ivo ivas ivos", inR2 (andThen remove dropAt)),
   ("ira iras", inRV (after (· == 'e') (replace "ir")))]

/-- Endings of verbs. -/
def verb : Endings := .ofGroup
  "ada ida ia aria eria iria ará ara erá era irá ava asse esse isse aste este iste ei arei erei
   irei am iam ariam eriam iriam aram eram iram avam em arem erem irem assem essem issem ado ido
   ando endo indo ara~o era~o ira~o ar er ir as adas idas ias arias erias irias arás aras erás eras
   irás avas es ardes erdes irdes ares eres ires asses esses isses astes estes istes is ais eis
   íeis aríeis eríeis iríeis áreis areis éreis ereis íreis ireis ásseis ésseis ísseis áveis ados
   idos ámos amos íamos aríamos eríamos iríamos áramos éramos íramos ávamos emos aremos eremos
   iremos ássemos êssemos íssemos imos armos ermos irmos eu iu ou ira iras" remove

/-- An `i` at the end goes after `c`. -/
def iAfterC : Step := fun g w =>
  match w with
  | 'i' :: 'c' :: rest => if g.rv ≤ rest.length + 1 then some ('c' :: rest) else none
  | _ => none

/-- A `u` at the end goes after `g`. -/
def uAfterG : Step := fun g w =>
  match w with
  | 'u' :: 'g' :: rest => if g.rv ≤ rest.length + 1 then some ('g' :: rest) else none
  | _ => none

/-- Vowels at the end of a word that has none of the other endings. -/
def residual : Endings := .ofGroup "os a i o á í ó" (inRV remove)

/-- The form of the last letters. -/
def form : Endings := .ofGroups
  [("e é ê", inRV (andThen remove (orElse uAfterG iAfterC))), ("ç", replace "c")]

/-- The stem of a word. -/
def stem (word : List Char) : List Char :=
  let cs := splitTildes word
  let g := Regions.romance isVowel cs
  let w := performAll
    [orElse (andThen (orElse usual.step verb.stepInRV) iAfterC) residual.step, form.step]
    g cs.reverse
  joinTildes w.reverse

end TextAnalysis.Stemming.Portuguese
