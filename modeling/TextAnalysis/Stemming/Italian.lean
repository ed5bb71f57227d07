import TextAnalysis.Stemming.Ending

/-!
# Italian stems

The stems of Italian words. Acute accents are written as grave ones; `u` after `q`, and `u` and `i`
between vowels, are consonants, which is marked by writing them as capitals.
-/

set_option autoImplicit false

namespace TextAnalysis.Stemming.Italian

/-- The vowels. -/
def isVowel : Char → Bool := oneOf "aeiouàèìòù"

/-- Acute accents and the grave ones that take their place. -/
def accented : List (Char × Char) :=
  [('á', 'à'), ('é', 'è'), ('í', 'ì'), ('ó', 'ò'), ('ú', 'ù')]

/-- Marks `u` after `q`. -/
def markAfterQ (afterQ : Bool) : List Char → List Char
  | [] => []
  | c :: rest => (if afterQ && c == 'u' then 'U' else c) :: markAfterQ (c == 'q') rest

/-- A word in the form in which it is stemmed. -/
def prepare (word : List Char) : List Char :=
  markBetween isVowel [('u', 'U'), ('i', 'I')] false (markAfterQ false (respell accented word))

/-- The ends of the forms of verbs to which pronouns are attached. -/
def hosts : Endings := .ofGroup "ando endo ar er ir" remove

/-- Takes off an attached pronoun. An infinitive gets its vowel back. -/
def dropPronoun : Step := fun g rest =>
  match hosts.longest? 0 rest with
  | some (_, before) =>
    if g.rv ≤ before.length then
      some (if headIs (· == 'r') rest then 'e' :: rest else rest)
    else none
  | none => none

/-- Pronouns attached to a verb. -/
def pronouns : Endings := .ofGroup
  "ci gli la le li lo mi ne si ti vi sene gliela gliele glieli glielo gliene mela mele meli melo
   mene tela tele teli telo tene cela cele celi celo cene vela vele veli velo vene" dropPronoun

/-- Endings before `amente`. -/
def beforeAmente : Endings := .ofGroups
  [("iv", inR2 (andThen remove (removing "at" (inR2 remove)))), ("os ic abil", inR2 remove)]

/-- The usual endings. -/
def usual : Endings := .ofGroups
  [("anza anze ico ici ica ice iche ichi ismo ismi abile abili ibile ibili ista iste isti istà istè
     istì oso osi osa ose mente atrice atrici ante anti", inR2 remove),
   ("azione azioni atore atori", inR2 (andThen remove (removing "ic" (inR2 remove)))),
   ("logia logie", inR2 (replace "log")),
   ("uzione uzioni usione usioni", inR2 (replace "u")),
   ("enza enze", inR2 (replace "ente")),
   ("amento amenti imento imenti", inRV remove),
   ("amente", inR1 (andThen remove beforeAmente.step)),
   ("ità", inR2 (andThen remove (Endings.ofGroup "abil ic iv" (inR2 remove)).step)),
   ("ivo ivi iva ive",
    inR2 (andThen remove
      (removing "at" (inR2 (andThen remove (removing "ic" (inR2 remove)))))))]

/-- Endings of verbs. -/
def verb : Endings := .ofGroup
  "ammo ando ano are arono asse assero assi assimo ata ate ati ato ava avamo avano avate avi avo
   emmo enda ende endi endo erà erai eranno ere erebbe erebbero erei eremmo eremo ereste eresti
   erete erò erono essero ete eva evamo evano evate evi evo Yamo iamo immo irà irai iranno ire
   irebbe irebbero irei iremmo iremo ireste iresti irete irò irono isca iscano isce isci isco
   iscono issero ita ite iti ito iva ivamo ivano ivate ivi ivo ono uta ute uti uto ar ir" remove

/-- A final vowel goes, and an `i` before it. -/
def finalVowel : Step := fun g w =>
  match w with
  | v :: rest =>
    if oneOf "aeioàèìò" v && decide (g.rv ≤ rest.length) then
      some (perform (removing "i" (inRV remove)) g rest)
    else none
  | [] => none

/-- An `h` goes after `c` and `g`. -/
def finalH : Step := fun g w =>
  match w with
  | 'h' :: c :: rest =>
    if oneOf "cg" c && decide (g.rv ≤ rest.length) then some (c :: rest) else none
  | _ => none

/-- The stem of a word. -/
def stem (word : List Char) : List Char :=
  let marked := prepare word
  let g := Regions.romance isVowel marked
  let w := performAll
    [pronouns.step, orElse usual.step verb.stepInRV, finalVowel, finalH] g marked.reverse
  respell [('I', 'i'), ('U', 'u')] w.reverse

end TextAnalysis.Stemming.Italian
