import TextAnalysis.Stemming.Ending

/-!
# Spanish stems

The stems of Spanish words. Pronouns attached to a verb go first, then a usual ending or one of a
verb, and then a final vowel; acute accents are dropped in the end.
-/

set_option autoImplicit false

namespace TextAnalysis.Stemming.Spanish

/-- The vowels. -/
def isVowel : Char → Bool := oneOf "aeiouáéíóúü"

/-- The ends of the forms of verbs to which pronouns are attached, with the form that is left. -/
def hosts : Endings := .ofGroups
  [("iéndo", inRV (replace "iendo")), ("ándo", inRV (replace "ando")), ("ár", inRV (replace "ar")),
   ("ér", inRV (replace "er")), ("ír", inRV (replace "ir")),
   ("ando", inRV (replace "ando")), ("iendo", inRV (replace "iendo")), ("ar", inRV (replace "ar")),
   ("er", inRV (replace "er")), ("ir", inRV (replace "ir")),
   ("yendo", inRV (after (· == 'u') (replace "yendo")))]

/-- Pronouns attached to a verb. -/
def pronouns : Endings := .ofGroup
  "me se sela selo selas selos la le lo las les los nos" hosts.step

/-- The ending `at` in the second region. -/
def dropAt : Step := removing "at" (inR2 remove)

/-- Endings before `amente`. -/
def beforeAmente : Endings := .ofGroups
  [("iv", inR2 (andThen remove dropAt)), ("os ic ad", inR2 remove)]

/-- The usual endings. -/
def usual : Endings := .ofGroups
  [("anza anzas ico ica icos icas ismo ismos able ables ible ibles ista istas oso osa osos osas
     amiento amientos imiento imientos", inR2 remove),
   ("adora ador ación adoras adores aciones ante antes ancia ancias",
    inR2 (andThen remove (removing "ic" (inR2 remove)))),
   ("logía logías", inR2 (replace "log")),
   ("ución uciones", inR2 (replace "u")),
   ("encia encias", inR2 (replace "ente")),
   ("amente", inR1 (andThen remove beforeAmente.step)),
   ("mente", inR2 (andThen remove (Endings.ofGroup "ante able ible" (inR2 remove)).step)),
   ("idad idades", inR2 (andThen remove (Endings.ofGroup "abil ic iv" (inR2 remove)).step)),
   ("iva ivo ivas ivos", inR2 (andThen remove dropAt))]

/-- Endings of verbs that start with `y` and follow `u`. -/
def verbY : Endings := .ofGroup
  "ya ye yan yen yeron yendo yo yó yas yes yais yamos" (after (· == 'u') remove)

/-- An ending that takes the `u` of `gu` with it. -/
def removeWithU : Step := fun _ rest =>
  match rest with
  | 'u' :: 'g' :: before => some ('g' :: before)
  | _ => some rest

/-- Endings of verbs. -/
def verb : Endings := .ofGroups
  [("en es éis emos", removeWithU),
   ("arían arías arán arás aríais aría aréis aríamos aremos ará aré erían erías erán erás eríais
     ería eréis eríamos eremos erá eré irían irías irán irás iríais iría iréis iríamos iremos irá
     iré aba ada ida ía ara iera ad ed id ase iese aste iste an aban ían aran ieran asen iesen aron
     ieron ado ido ando iendo ió ar er ir as abas adas idas ías aras ieras ases ieses ís áis abais
     íais arais ierais aseis ieseis asteis isteis ados idos amos ábamos íamos imos áramos iéramos
     iésemos ásemos", remove)]

/-- The `u` of `gu` at the end goes. -/
def finalU : Step := fun g w =>
  match w with
  | 'u' :: 'g' :: rest => if g.rv ≤ rest.length + 1 then some ('g' :: rest) else none
  | _ => none

/-- Vowels at the end. -/
def residual : Endings := .ofGroups
  [("os a o á í ó", inRV remove), ("e é", inRV (andThen remove finalU))]

/-- The stem of a word. -/
def stem (word : List Char) : List Char :=
  let g := Regions.romance isVowel word
  let w := performAll
    [pronouns.step, orElse usual.step (orElse verbY.stepInRV verb.stepInRV), residual.step]
    g word.reverse
  respell [('á', 'a'), ('é', 'e'), ('í', 'i'), ('ó', 'o'), ('ú', 'u')] w.reverse

end TextAnalysis.Stemming.Spanish
