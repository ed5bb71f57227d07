import TextAnalysis.Stemming.Ending

/-!
# French stems

The stems of French words. `u` and `i` between vowels, `y` beside a vowel and `u` after `q` are
consonants, which is marked by writing them as capitals. Usual endings are tried first, then those
of verbs, and where there is none of them, what may still be left at the end goes.
-/

set_option autoImplicit false

namespace TextAnalysis.Stemming.French

/-- The vowels. -/
def isVowel : Char → Bool := oneOf "aeiouyâàëéêèïîôûù"

/-- Is the letter no vowel? -/
def isConsonant (c : Char) : Bool := !isVowel c

/-- Marks the consonants among vowel letters. `c` is the letter before the rest. -/
def markFrom (c : Char) : List Char → List Char
  | [] => [c]
  | d :: rest =>
    if isVowel c && d == 'u' && headIs isVowel rest then c :: markFrom 'U' rest
    else if isVowel c && d == 'i' && headIs isVowel rest then c :: markFrom 'I' rest
    else if isVowel c && d == 'y' then c :: markFrom 'Y' rest
    else if c == 'y' && isVowel d then 'Y' :: markFrom d rest
    else if c == 'q' && d == 'u' then c :: markFrom 'U' rest
    else c :: markFrom d rest

/-- Marks the consonants among vowel letters. -/
def mark : List Char → List Char
  | [] => []
  | c :: rest => markFrom c rest

/-- Beginnings that are followed by the region of verb endings. -/
def heads : List (List Char) := (Text.fields "par col tap").map String.toList

/-- The part of a word from the region of verb endings on: after three letters of which the first
two are vowels, after some beginnings, or after the first vowel that does not start the word. -/
def verbPart? (cs : List Char) : Option (List Char) :=
  match cs with
  | a :: b :: rest =>
    if isVowel a && isVowel b && !rest.isEmpty then some (rest.drop 1)
    else
      match heads.findSome? fun h => dropEnding? h cs with
      | some rest => some rest
      | none => past? isVowel (b :: rest)
  | _ => none

/-- The regions of a word. -/
def regions (cs : List Char) : Regions :=
  let first := pastSyllable? isVowel cs
  .ofParts cs (verbPart? cs) first (first.bind (pastSyllable? isVowel))

/-- The ending `ic` goes in the second region and changes elsewhere. -/
def ic : Step := removing "ic" (orElse (inR2 remove) (replace "iqU"))

/-- Endings before `ement`. -/
def beforeEment : Endings := .ofGroups
  [("iv", inR2 (andThen remove (removing "at" (inR2 remove)))),
   ("eus", orElse (inR2 remove) (inR1 (replace "eux"))),
   ("abl iqU", inR2 remove),
   ("ièr Ièr", inRV (replace "i"))]

/-- Endings before `ité`. -/
def beforeIte : Endings := .ofGroups
  [("abil", orElse (inR2 remove) (replace "abl")),
   ("ic", orElse (inR2 remove) (replace "iqU")),
   ("iv", inR2 remove)]

/-- The usual endings. Those of adverbs are left to `adverb`. -/
def usual : Endings := .ofGroups
  [("ance iqUe isme able iste eux ances iqUes ismes ables istes", inR2 remove),
   ("atrice ateur ation atrices ateurs ations", inR2 (andThen remove ic)),
   ("logie logies", inR2 (replace "log")),
   ("usion ution usions utions", inR2 (replace "u")),
   ("ence ences", inR2 (replace "ent")),
   ("ement ements", inRV (andThen remove beforeEment.step)),
   ("ité ités", inR2 (andThen remove beforeIte.step)),
   ("if ive ifs ives", inR2 (andThen remove (removing "at" (inR2 (andThen remove ic))))),
   ("eaux", replace "eau"),
   ("aux", inR1 (replace "al")),
   ("euse euses", orElse (inR2 remove) (inR1 (replace "eux"))),
   ("issement issements", inR1 (after isConsonant remove)),
   ("amment emment ment ments", keep)]

/-- A vowel in the region of verb endings must come before the ending. -/
def afterVerbVowel : Step := fun g rest =>
  match rest with
  | v :: before => if isVowel v && decide (g.rv ≤ before.length) then some rest else none
  | [] => none

/-- Endings of adverbs, which leave a form of a verb behind. -/
def adverb : Endings := .ofGroups
  [("amment", inRV (replace "ant")), ("emment", inRV (replace "ent")),
   ("ment ments", afterVerbVowel),
   ("ement ements issement issements", keep)]

/-- A consonant in the region of verb endings must come before the ending. -/
def afterVerbConsonant : Step := fun g rest =>
  match rest with
  | c :: before => if isConsonant c && decide (g.rv ≤ before.length) then some rest else none
  | [] => none

/-- Endings of verbs in `ir`. -/
def verbI : Endings := .ofGroup
  "îmes ît îtes i ie ies ir ira irai iraIent irais irait iras irent irez iriez irions irons iront is
   issaIent issais issait issant issante issantes issants isse issent isses issez issiez issions
   issons it" afterVerbConsonant

/-- An `e` goes in the region of verb endings. -/
def dropE : Step := removing "e" (inRV remove)

/-- Endings of other verbs. -/
def verb : Endings := .ofGroups
  [("ions", inR2 remove),
   ("é ée ées és èrent er era erai eraIent erais erait eras erez eriez erions erons eront ez iez",
    remove),
   ("âmes ât âtes a ai aIent ais ait ant ante antes ants as asse assent asses assiez assions",
    andThen remove dropE)]

/-- A final `s` goes, except after some letters. -/
def finalS : Step := fun _ w =>
  match w with
  | 's' :: c :: rest => if oneOf "aiouès" c then none else some (c :: rest)
  | _ => none

/-- The ending `ion` goes after `s` or `t` in the region of verb endings. -/
def ion : Step := inR2 fun g rest =>
  match rest with
  | c :: before => if oneOf "st" c && decide (g.rv ≤ before.length) then some rest else none
  | [] => none

/-- The ending `ë` goes after `gu` in the region of verb endings. -/
def afterGu : Step := fun g rest =>
  match rest with
  | 'u' :: 'g' :: before => if g.rv ≤ before.length then some rest else none
  | _ => none

/-- What may still be left at the end. -/
def residual : Endings := .ofGroups
  [("ion", ion), ("ier ière Ier Ière", replace "i"), ("e", remove), ("ë", afterGu)]

/-- A final consonant that has been marked, or has a cedilla, is written plainly. -/
def plainEnd : Back → Back
  | 'Y' :: rest => 'i' :: rest
  | 'ç' :: rest => 'c' :: rest
  | w => w

/-- A doubled consonant at the end is written once. -/
def undouble : Endings := .ofGroups
  [("enn", replace "en"), ("onn", replace "on"), ("ett", replace "et"), ("ell", replace "el"),
   ("eill", replace "eil")]

/-- An accented `e` before the last consonants loses its accent. -/
def unaccentE : Back → Back
  | [] => []
  | c :: rest =>
    if oneOf "éè" c then 'e' :: rest
    else if isConsonant c then c :: unaccentE rest
    else c :: rest

/-- The same where there is a consonant at the end. -/
def unaccent (w : Back) : Back := if headIs isConsonant w then unaccentE w else w

/-- Takes off a usual ending or one of a verb, or else what may still be left. -/
def takeOff (g : Regions) (w : Back) : Back :=
  match usual.step g w with
  | some found => plainEnd found
  | none =>
    let w := perform adverb.step g w
    match orElse verbI.stepInRV verb.stepInRV g w with
    | some found => plainEnd found
    | none => performAll [finalS, residual.stepInRV] g w

/-- The stem of a word. -/
def stem (word : List Char) : List Char :=
  let marked := mark word
  let g := regions marked
  let w := takeOff g marked.reverse
  let w := unaccent (perform undouble.step g w)
  respell [('I', 'i'), ('U', 'u'), ('Y', 'y')] w.reverse

end TextAnalysis.Stemming.French
