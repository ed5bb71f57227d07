/-!
# Regions of words

Rules of stemming look at the ends of words, so a word is read from its end here: its letters, the
last one first. What a rule may do often depends on where an ending starts: the regions of a word
are its parts from given places on, and `Regions` holds these places, counted in letters from the
start of the word. They stay as they are while endings are taken off.
-/

set_option autoImplicit false

namespace TextAnalysis.Stemming

/-- A word read from its end: its letters, the last one first. -/
abbrev Back := List Char

/-- Where the regions of a word start. A region that starts at the end of the word is empty. -/
structure Regions where
  /-- The first region: usually what follows the first consonant after a vowel. -/
  r1 : Nat
  /-- The second region: the first region of the first region. -/
  r2 : Nat
  /-- The region of verb endings, in languages that have one. -/
  rv : Nat := 0

/-- Regions that are the whole word, for rules that look at no region. -/
def Regions.whole : Regions := ⟨0, 0, 0⟩

/-- The letters listed in a text. -/
def oneOf (letters : String) (c : Char) : Bool := letters.toList.contains c

/-- Is the first letter of a kind? In a word read from its end that is the last letter. -/
def headIs (kind : Char → Bool) : List Char → Bool
  | c :: _ => kind c
  | [] => false

/-- Writes the letters between two vowels as `marks` says, which makes them consonants. -/
def markBetween (vowel : Char → Bool) (marks : List (Char × Char)) (afterVowel : Bool) :
    List Char → List Char
  | [] => []
  | c :: rest =>
    match if afterVowel && headIs vowel rest then marks.lookup c else none with
    | some mark => mark :: markBetween vowel marks false rest
    | none => c :: markBetween vowel marks (vowel c) rest

/-- Writes letters in another way, as `pairs` says. -/
def respell (pairs : List (Char × Char)) (cs : List Char) : List Char :=
  cs.map fun c => (pairs.lookup c).getD c

/-- What follows the first letter of a kind. -/
def past? (kind : Char → Bool) : List Char → Option (List Char)
  | [] => none
  | c :: rest => if kind c then some rest else past? kind rest

/-- What follows the first vowel and the first consonant after it. -/
def pastSyllable? (vowel : Char → Bool) (cs : List Char) : Option (List Char) :=
  (past? vowel cs).bind (past? fun c => !vowel c)

/-- Where a part of a word starts, which is the end of it; the end of the word where there is no
such part. -/
def startOf (word : List Char) : Option (List Char) → Nat
  | some part => word.length - part.length
  | none => word.length

/-- The part of a word from the region of verb endings on, as in most Romance languages. After two
letters of which the second is a consonant, the region follows the next vowel; after two vowels,
the next consonant; and after a consonant and a vowel, the third letter. -/
def verbPart? (vowel : Char → Bool) : List Char → Option (List Char)
  | a :: b :: rest =>
    if !vowel b then past? vowel rest
    else if vowel a then past? (fun c => !vowel c) rest
    else
      match rest with
      | _ :: rest => some rest
      | [] => none
  | _ => none

/-- The regions that the vowels of a language give, with the part for verb endings. -/
def Regions.ofParts (word : List Char) (verb first second : Option (List Char)) : Regions :=
  ⟨startOf word first, startOf word second, startOf word verb⟩

/-- The regions of a word in most languages. -/
def Regions.standard (vowel : Char → Bool) (word : List Char) : Regions :=
  let first := pastSyllable? vowel word
  .ofParts word none first (first.bind (pastSyllable? vowel))

/-- The regions of a word in most Romance languages. -/
def Regions.romance (vowel : Char → Bool) (word : List Char) : Regions :=
  let first := pastSyllable? vowel word
  .ofParts word (verbPart? vowel word) first (first.bind (pastSyllable? vowel))

/-- The regions of a word in most Germanic languages, where at least three letters come before the
first region. -/
def Regions.germanic (vowel : Char → Bool) (word : List Char) : Regions :=
  if word.length < 3 then ⟨word.length, word.length, word.length⟩
  else
    let g := Regions.standard vowel word
    { g with r1 := max 3 g.r1 }

end TextAnalysis.Stemming
