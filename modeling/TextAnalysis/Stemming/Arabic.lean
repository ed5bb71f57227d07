import TextAnalysis.Stemming.Ending

/-!
# Arabic stems

The stems of Arabic words. Vowel marks are dropped and letters written in their basic forms; then
suffixes of verbs or of nouns go, and prefixes, each only where enough of the word is left; in the
end the forms of hamza are written alike. An article tells that a word is a definite noun.
-/

set_option autoImplicit false

namespace TextAnalysis.Stemming.Arabic

/-! ## Basic forms of letters -/

/-- Is the character a vowel mark, or a mere lengthening of a letter? -/
def isMark (c : Char) : Bool := (0x64B ≤ c.toNat && c.toNat ≤ 0x652) || c.toNat == 0x640

/-- Letters, each with the number of its positional forms, in the order of these forms. -/
def presented : List (String × Nat) :=
  [("ء", 1), ("آ", 2), ("أ", 2), ("ؤ", 2), ("إ", 2), ("ئ", 4), ("ا", 2), ("ب", 4), ("ة", 2),
   ("ت", 4), ("ث", 4), ("ج", 4), ("ح", 4), ("خ", 4), ("د", 2), ("ذ", 2), ("ر", 2), ("ز", 2),
   ("س", 4), ("ش", 4), ("ص", 4), ("ض", 4), ("ط", 4), ("ظ", 4), ("ع", 4), ("غ", 4), ("ف", 4),
   ("ق", 4), ("ك", 4), ("ل", 4), ("م", 4), ("ن", 4), ("ه", 4), ("و", 2), ("ى", 2), ("ي", 4),
   ("لآ", 2), ("لأ", 2), ("لإ", 2), ("لا", 2)]

/-- The basic forms of the positional forms, in order; the first of them is U+FE80. -/
def basicForms : Array (List Char) :=
  (presented.flatMap fun p => List.replicate p.2 p.1.toList).toArray

/-- The basic form of a character. Digits are written in the western way. -/
def basicForm (c : Char) : List Char :=
  let n := c.toNat
  if isMark c then []
  else if 0x660 ≤ n && n ≤ 0x669 then [Char.ofNat (n - 0x660 + '0'.toNat)]
  else if 0xFE80 ≤ n then basicForms.getD (n - 0xFE80) [c]
  else [c]

/-! ## What is known about a word -/

/-- What an article tells about a word. -/
structure Kind where
  isVerb : Bool
  isDefinite : Bool

/-- What is left of a word when something is taken off its front. -/
def dropFront? (front : String) (cs : List Char) : Option (List Char) := dropEnding? front.toList cs

/-- Does a word start like this? -/
def startsWith (front : String) (cs : List Char) : Bool := (dropFront? front cs).isSome

/-- What is known about a word from its start. -/
def kind (word : List Char) : Kind :=
  let n := word.length
  let definite :=
    if startsWith "بال" word || startsWith "كال" word then 4 < n
    else (startsWith "لل" word || startsWith "ال" word) && 3 < n
  ⟨!definite, definite⟩

/-! ## Suffixes -/

/-- Takes a suffix off a word of so many letters at least, which are counted with the suffix. -/
def ofLength (least : Nat) (suffixes : String) : List (String × Step) :=
  (Text.fields suffixes).map fun suffix =>
    (suffix, fun _ rest => if least ≤ rest.length + suffix.length then some rest else none)

/-- A table of suffixes that go from words of so many letters. -/
def suffixTable (groups : List (Nat × String)) : Endings :=
  .ofGroups (groups.flatMap fun group => ofLength group.1 group.2)

/-- Pronouns after a noun. -/
def nounPronoun : Endings := suffixTable [(4, "ي ك ه"), (5, "نا كم ها هن هم"), (6, "كما هما")]

/-- The last letter of a dual or plural of a noun. -/
def nounN : Endings := suffixTable [(6, "ن")]

/-- Long vowels at the end of a noun. -/
def nounVowel : Endings := suffixTable [(5, "ا ي و")]

/-- The feminine plural of a noun. -/
def nounPlural : Endings := suffixTable [(5, "ات")]

/-- A final letter of a feminine noun before a pronoun. -/
def nounT : Endings := suffixTable [(4, "ت")]

/-- The feminine ending of a noun. -/
def nounFeminine : Endings := suffixTable [(4, "ة")]

/-- The ending of adjectives of origin. -/
def nounOrigin : Endings := suffixTable [(3, "ي")]

/-- Pronouns after a verb. -/
def verbPronoun : Endings :=
  suffixTable [(4, "ه ك"), (5, "ني نا ها هم هن كم كن"), (6, "هما كما كمو")]

/-- Endings of a verb. -/
def verbEnding : Endings :=
  suffixTable [(4, "ت ا ن ي"), (5, "نا تا تن"), (6, "ان ون ين تما")]

/-- Endings of a verb in the past. -/
def verbPast : Endings := suffixTable [(5, "وا تم")]

/-- Endings of a verb before a pronoun. -/
def verbBefore : Endings := suffixTable [(4, "و"), (6, "تمو")]

/-- The last letter is written in another way. -/
def maqsura : Endings := .ofGroup "ى" (replace "ي")

/-- A step as often as it applies, at most a given number of times. -/
def repeated (s : Step) : Nat → Regions → Back → Back
  | 0, _, w => w
  | n + 1, g, w =>
    match s g w with
    | some rest => repeated s n g rest
    | none => w

/-- Takes the suffixes of a verb off: pronouns, and what stands before them, or else an ending. -/
def verb : Step := fun g w =>
  let bare := repeated verbPronoun.step w.length g w
  if bare.length < w.length && !bare.isEmpty then
    some (perform (orElse verbEnding.step verbBefore.step) g bare)
  else orElse verbPast.step verbEnding.step g bare

/-- The suffixes of a noun before its pronoun. -/
def nounBefore : Step := orElse nounVowel.step (orElse nounPlural.step nounT.step)

/-- Takes the inner suffixes of a noun off. A definite noun has no pronoun. -/
def nounInner (definite : Bool) (g : Regions) (w : Back) : Back :=
  match nounFeminine.step g w with
  | some rest => rest
  | none =>
  match if definite then none else nounPronoun.step g w with
  | some rest => perform nounBefore g rest
  | none =>
  match nounN.step g w with
  | some rest => perform nounBefore g rest
  | none =>
    perform (if definite then nounPlural.step else orElse nounVowel.step nounPlural.step) g w

/-- Takes the suffixes of a noun off. -/
def noun (definite : Bool) (g : Regions) (w : Back) : Back :=
  perform (orElse nounOrigin.step maqsura.step) g (nounInner definite g w)

/-- Takes suffixes off. -/
def dropSuffixes (k : Kind) (w : Back) : Back :=
  let g := Regions.whole
  match if k.isVerb then verb g w else none with
  | some rest => rest
  | none => noun k.isDefinite g w

/-! ## Prefixes -/

/-- A word while its prefixes are looked at: the letters that are done, the last one first, and
those ahead. -/
structure Ahead where
  done : List Char
  ahead : List Char

namespace Ahead

/-- The number of letters. -/
def size (a : Ahead) : Nat := a.done.length + a.ahead.length

/-- The word. -/
def word (a : Ahead) : List Char := a.done.reverse ++ a.ahead

/-- Takes letters off the front of what is ahead. -/
def drop (a : Ahead) (n : Nat) : Ahead := { a with ahead := a.ahead.drop n }

/-- Puts a letter in the place of two, and passes it. -/
def pass (a : Ahead) (c : Char) : Ahead := ⟨c :: a.done, a.ahead.drop 2⟩

end Ahead

/-- Two letters for hamza at the front are written as one. -/
def mergeHamza (a : Ahead) : Ahead :=
  if 3 < a.size then
    match a.ahead with
    | 'أ' :: 'أ' :: _ => a.pass 'أ'
    | 'أ' :: 'آ' :: _ => a.pass 'آ'
    | 'أ' :: 'ؤ' :: _ => a.pass 'أ'
    | 'أ' :: 'ا' :: _ => a.pass 'ا'
    | 'أ' :: 'إ' :: _ => a.pass 'إ'
    | _ => a
  else a

/-- A conjunction goes, unless an alef follows it. -/
def dropConjunction (a : Ahead) : Ahead :=
  match a.ahead with
  | c :: rest =>
    if oneOf "فو" c && !headIs (· == 'ا') rest && 3 < a.size then a.drop 1 else a
  | [] => a

/-- The article goes, with a preposition before it. -/
def dropArticle? (a : Ahead) : Option Ahead :=
  if startsWith "بال" a.ahead || startsWith "كال" a.ahead then
    if 5 < a.size then some (a.drop 3) else none
  else if startsWith "لل" a.ahead || startsWith "ال" a.ahead then
    if 4 < a.size then some (a.drop 2) else none
  else none

/-- A preposition before a noun goes, unless an alef follows it. -/
def dropPreposition? (a : Ahead) : Option Ahead :=
  if startsWith "با" a.ahead || a.size ≤ 3 then none
  else if startsWith "ب" a.ahead || startsWith "كك" a.ahead then some (a.drop 1)
  else none

/-- The mark of the future goes before a prefix of person. -/
def dropFuture (a : Ahead) : Ahead :=
  match a.ahead with
  | 'س' :: c :: _ => if oneOf "يتنأ" c && 4 < a.size then a.pass c else a
  | _ => a

/-- The prefix of a verb of the tenth form is written in its basic form. -/
def basicTenth (a : Ahead) : Ahead :=
  match a.ahead with
  | c :: 'س' :: 'ت' :: rest =>
    if oneOf "ينت" c && 4 < a.size then { a with ahead := 'ا' :: 'س' :: 'ت' :: rest } else a
  | _ => a

/-- Takes prefixes off. -/
def dropPrefixes (k : Kind) (word : List Char) : List Char :=
  let a := dropConjunction (mergeHamza ⟨[], word⟩)
  match dropArticle? a with
  | some rest => rest.word
  | none =>
  match dropPreposition? a with
  | some rest => rest.word
  | none => if k.isVerb then (basicTenth (dropFuture a)).word else a.word

/-! ## Hamza -/

/-- Letters with hamza and those without it. -/
def bare : List (Char × Char) :=
  [('أ', 'ا'), ('إ', 'ا'), ('آ', 'ا'), ('ؤ', 'و'), ('ئ', 'ي')]

/-- A last letter with hamza is written as hamza alone, and other letters lose theirs. -/
def writeHamza (w : Back) : Back :=
  match w with
  | c :: rest => respell bare ((if (bare.lookup c).isSome then 'ء' else c) :: rest)
  | [] => []

/-- The stem of a word. -/
def stem (word : List Char) : List Char :=
  let k := kind word
  let w := dropSuffixes k (word.flatMap basicForm).reverse
  (writeHamza (dropPrefixes k w.reverse).reverse).reverse

end TextAnalysis.Stemming.Arabic
