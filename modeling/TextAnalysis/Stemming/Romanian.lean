import TextAnalysis.Stemming.Ending

/-!
# Romanian stems

The stems of Romanian words. `u` and `i` between vowels are consonants, which is marked by writing
them as capitals. Articles go first, then combined endings are shortened as long as there are any,
and then a usual ending goes, or else one of a verb, and a final vowel.
-/

set_option autoImplicit false

namespace TextAnalysis.Stemming.Romanian

/-- The vowels. -/
def isVowel : Char → Bool := oneOf "aeiouâîă"

/-- Articles and endings of cases. -/
def article : Endings := .ofGroups
  [("ul ului", inR1 remove), ("aua", inR1 (replace "a")), ("ea ele elor", inR1 (replace "e")),
   ("ii iua iei iile iilor ilor", inR1 (replace "i")),
   ("ile", inR1 fun g rest => if endsWith "ab" rest then none else replace "i" g rest),
   ("atei", inR1 (replace "at")), ("aţie aţia", inR1 (replace "aţi"))]

/-- Combined endings and what they are shortened to. -/
def combined : Endings := .ofGroups
  [("abilitate abilitati abilităi abilităţi", inR1 (replace "abil")),
   ("ibilitate", inR1 (replace "ibil")),
   ("ivitate ivitati ivităi ivităţi", inR1 (replace "iv")),
   ("icitate icitati icităi icităţi icator icatori iciv iciva icive icivi icivă ical icala icale
     icali icală", inR1 (replace "ic")),
   ("ativ ativa ative ativi ativă aţiune atoare ator atori ătoare ător ători", inR1 (replace "at")),
   ("itiv itiva itive itivi itivă iţiune itoare itor itori", inR1 (replace "it"))]

/-- Shortens combined endings, at most a given number of times. Tells whether there were any. -/
def shortenAll (g : Regions) : Nat → Bool → Back → Bool × Back
  | 0, found, w => (found, w)
  | n + 1, found, w =>
    match combined.step g w with
    | some shorter => shortenAll g n true shorter
    | none => (found, w)

/-- The usual endings. -/
def usual : Endings := .ofGroups
  [("at ata ată ati ate ut uta ută uti ute it ita ită iti ite ic ica ice ici ică abil abila abile
     abili abilă ibil ibila ibile ibili ibilă oasa oasă oase os osi oşi ant anta ante anti antă
     ator atori itate itati ităi ităţi iv iva ive ivi ivă", inR2 remove),
   ("iune iuni", inR2 fun _ rest =>
      match rest with
      | 'ţ' :: before => some ('t' :: before)
      | _ => none),
   ("ism isme ist ista iste isti istă işti", inR2 (replace "ist"))]

/-- A consonant or `u` in the region of verb endings must come before the ending. -/
def afterConsonant : Step := fun g rest =>
  match rest with
  | c :: before =>
    if (!isVowel c || c == 'u') && decide (g.rv ≤ before.length) then some rest else none
  | [] => none

/-- Endings of verbs. -/
def verb : Endings := .ofGroups
  [("are ere ire âre ind ând indu ându eze ească ez ezi ează esc eşti eşte ăsc ăşti ăşte am ai au
     eam eai ea eaţi eau iam iai ia iaţi iau ui aşi arăm arăţi ară uşi urăm urăţi ură işi irăm
     irăţi iră âi âşi ârăm ârăţi âră asem aseşi ase aserăm aserăţi aseră isem iseşi ise iserăm
     iserăţi iseră âsem âseşi âse âserăm âserăţi âseră usem useşi use userăm userăţi
     useră", afterConsonant),
   ("ăm aţi em eţi im iţi âm âţi seşi serăm serăţi seră sei se sesem seseşi sese seserăm seserăţi
     seseră", remove)]

/-- Vowels at the end. -/
def finalVowel : Endings := .ofGroup "a e i ie ă" (inRV remove)

/-- The stem of a word. -/
def stem (word : List Char) : List Char :=
  let marked := markBetween isVowel [('u', 'U'), ('i', 'I')] false word
  let g := Regions.romance isVowel marked
  let w := perform article.step g marked.reverse
  let (shortened, w) := shortenAll g w.length false w
  let w :=
    match usual.step g w with
    | some found => found
    | none => if shortened then w else perform verb.stepInRV g w
  respell [('I', 'i'), ('U', 'u')] (perform finalVowel.step g w).reverse

end TextAnalysis.Stemming.Romanian
