import TextAnalysis.Stemming.Ending

/-!
# Turkish stems

The stems of Turkish words. Suffixes follow one another, and their vowels are in harmony with those
before them, so a suffix is recognised by a function that takes it off the end of a word where it
may stand. Suffixes of predicates go first, then those of nouns; the last consonant is then put into the
form that it has at the end of a word.
-/

set_option autoImplicit false

namespace TextAnalysis.Stemming.Turkish

/-- What is left of a word when a suffix is taken off, where it may stand. -/
abbrev Suffix := Back → Option Back

/-- The vowels. -/
def isVowel : Char → Bool := oneOf "aeıioöuü"

/-- The high vowels. -/
def isHigh : Char → Bool := oneOf "ıiuü"

/-! ## Harmony -/

/-- The vowels that may come before a vowel. -/
def partners (c : Char) : Char → Bool :=
  if c = 'a' then oneOf "aıou"
  else if c = 'e' then oneOf "eiöü"
  else if c = 'ı' then oneOf "aı"
  else if c = 'i' then oneOf "ei"
  else if c = 'o' || c = 'u' then oneOf "ou"
  else oneOf "öü"

/-- Is there a vowel before the last one that may come before it? -/
def isHarmonic (w : Back) : Bool :=
  match w.dropWhile fun c => !isVowel c with
  | c :: rest => rest.any (partners c)
  | [] => false

/-- A suffix that stands only in a word in harmony. -/
def harmonic (s : Suffix) : Suffix := fun w => if isHarmonic w then s w else none

/-- One of the listed suffixes, the longest. -/
def anyOf (suffixes : String) : Suffix :=
  let table := Endings.ofGroup suffixes remove
  fun w => (table.longest? 0 w).map Prod.snd

/-- The first of two suffixes. -/
def either (s t : Suffix) : Suffix := fun w =>
  match s w with
  | some rest => some rest
  | none => t w

/-- A suffix after another one; the one that comes last in the word is given first. -/
def following (s t : Suffix) : Suffix := fun w => (s w).bind t

/-- A suffix that may be missing. -/
def optional (s : Suffix) : Suffix := fun w => some ((s w).getD w)

/-- A consonant that stands between a vowel and a suffix goes with the suffix; without it, the last
letter but one must be a vowel. -/
def withConsonant (b : Char) (s : Suffix) : Suffix := fun w =>
  (s w).bind fun rest =>
    match rest with
    | c :: before =>
      if headIs isVowel before then some (if c = b then before else rest) else none
    | [] => none

/-- A high vowel that stands between a consonant and a suffix goes with the suffix; without it, the
last letter but one must be a consonant. -/
def withVowel (s : Suffix) : Suffix := fun w =>
  (s w).bind fun rest =>
    match rest with
    | c :: before =>
      if headIs (fun b => !isVowel b) before then some (if isHigh c then before else rest) else none
    | [] => none

/-! ## Suffixes -/

/-- My, your, our. -/
def possessive : Suffix := withVowel (anyOf "mız miz muz müz nız niz nuz nüz m n")

/-- His. -/
def his : Suffix := harmonic (withConsonant 's' (anyOf "ı i u ü"))

/-- Their. -/
def their : Suffix := anyOf "leri ları"

/-- The accusative. -/
def accusative : Suffix := harmonic (withConsonant 'y' (anyOf "ı i u ü"))

/-- The accusative after a possessive. -/
def accusativeN : Suffix := harmonic (anyOf "nı ni nu nü")

/-- The genitive. -/
def genitive : Suffix := harmonic (withConsonant 'n' (anyOf "ın in un ün"))

/-- The dative. -/
def dative : Suffix := harmonic (withConsonant 'y' (anyOf "a e"))

/-- The dative after a possessive. -/
def dativeN : Suffix := harmonic (anyOf "na ne")

/-- The locative. -/
def locative : Suffix := harmonic (anyOf "da de ta te")

/-- The locative after a possessive. -/
def locativeN : Suffix := harmonic (anyOf "nda nde")

/-- The ablative. -/
def ablative : Suffix := harmonic (anyOf "dan den tan ten")

/-- The ablative after a possessive. -/
def ablativeN : Suffix := harmonic (anyOf "ndan nden")

/-- The instrumental. -/
def instrumental : Suffix := harmonic (withConsonant 'y' (anyOf "la le"))

/-- The suffix of what belongs somewhere. -/
def relative : Suffix := anyOf "ki"

/-- The suffix of manner. -/
def manner : Suffix := harmonic (withConsonant 'n' (anyOf "ca ce"))

/-- The plural. -/
def plural : Suffix := harmonic (anyOf "ler lar")

/-- I am. -/
def first : Suffix := harmonic (withConsonant 'y' (anyOf "ım im um üm"))

/-- You are. -/
def second : Suffix := harmonic (anyOf "sın sin sun sün")

/-- We are. -/
def firstPlural : Suffix := harmonic (withConsonant 'y' (anyOf "ız iz uz üz"))

/-- You all are. -/
def secondPlural : Suffix := anyOf "sınız siniz sunuz sünüz"

/-- Your, of several owners. -/
def ownersPlural : Suffix := harmonic (anyOf "nız niz nuz nüz")

/-- It is. -/
def third : Suffix := harmonic (anyOf "tır tir tur tür dır dir dur dür")

/-- As if. -/
def asIf : Suffix := anyOf "casına cesine"

/-- The past. -/
def past : Suffix := harmonic (withConsonant 'y' (anyOf
  "tım tim tum tüm dım dim dum düm tın tin tun tün dın din dun dün tık tik tuk tük dık dik duk dük
   tı ti tu tü dı di du dü"))

/-- The conditional. -/
def conditional : Suffix := withConsonant 'y' (anyOf "sam san sak sem sen sek sa se")

/-- The reported past. -/
def reported : Suffix := harmonic (withConsonant 'y' (anyOf "mış miş muş müş"))

/-- While. -/
def during : Suffix := withConsonant 'y' (anyOf "ken")

/-! ## Predicates -/

/-- The person of a predicate. -/
def person : Suffix :=
  optional (either secondPlural (either plural (either first (either second firstPlural))))

/-- Takes the suffixes of a predicate off. Tells whether those of a noun may follow, which they may
not where a plural has gone. -/
def predicate (w : Back) : Bool × Back :=
  match either reported (either past (either conditional during)) w with
  | some rest => (true, rest)
  | none =>
  match following asIf (following person reported) w with
  | some rest => (true, rest)
  | none =>
  match plural w with
  | some rest =>
    (false, (either third (either past (either conditional reported)) rest).getD rest)
  | none =>
  match following ownersPlural (either past conditional) w with
  | some rest => (true, rest)
  | none =>
  match either secondPlural (either firstPlural (either second first)) w with
  | some rest => (true, (reported rest).getD rest)
  | none =>
  match third w with
  | some rest => (true, (following person reported rest).getD rest)
  | none => (true, w)

/-! ## Nouns -/

/-- What a step leaves, or the word itself where it does not apply. -/
def attempt (s : Suffix) (w : Back) : Back := (s w).getD w

/-- Takes a suffix off inside a word: what follows `rest` in it stays. -/
def inside (s : Suffix) (w rest : Back) : Option Back :=
  (s rest).map fun before => w.take (w.length - rest.length) ++ before

/-- Takes the suffixes off that end in one of what belongs somewhere, and those before them. The
number bounds how often there may be such a suffix. -/
def beforeRelative : Nat → Suffix
  | 0, _ => none
  | n + 1, w =>
    let chain := beforeRelative n
    let pluralChain (w : Back) : Back :=
      match plural w with
      | some rest => attempt chain rest
      | none => w
    match relative w with
    | none => none
    | some rest =>
    match locative rest with
    | some rest =>
      match plural rest with
      | some rest => some (attempt chain rest)
      | none =>
      match possessive rest with
      | some rest => some (pluralChain rest)
      | none => some rest
    | none =>
    match genitive rest with
    | some rest =>
      match their rest with
      | some rest => some rest
      | none =>
      match either possessive his rest with
      | some rest => some (pluralChain rest)
      | none => some (attempt chain rest)
    | none =>
    match locativeN rest with
    | some rest =>
      match their rest with
      | some rest => some rest
      | none =>
      match his rest with
      | some rest => some (pluralChain rest)
      | none => inside chain w rest
    | none => none

/-- Takes off what `beforeRelative` does, as often as it occurs. -/
def relativeChain : Suffix := fun w => beforeRelative (w.length + 1) w

/-- Takes a plural off, and what belongs somewhere before it. -/
def pluralChain (w : Back) : Back :=
  match plural w with
  | some rest => attempt relativeChain rest
  | none => w

/-- A plural. -/
def nounPlural : Suffix := fun w => (plural w).map (attempt relativeChain)

/-- The suffix of manner, and what comes before it. -/
def nounManner : Suffix := fun w =>
  (manner w).map fun rest =>
    match their rest with
    | some rest => rest
    | none =>
    match either possessive his rest with
    | some rest => pluralChain rest
    | none => pluralChain rest

/-- The locative or dative after a possessive, which must be there. -/
def nounLocativeN : Suffix := fun w =>
  (either locativeN dativeN w).bind fun rest =>
    match their rest with
    | some rest => some rest
    | none =>
    match his rest with
    | some rest => some (pluralChain rest)
    | none => inside relativeChain w rest

/-- The ablative or accusative after a possessive. After the plural one nothing goes. -/
def nounAblativeN : Suffix := fun w =>
  (either ablativeN accusativeN w).bind fun rest =>
    match his rest with
    | some rest => some (pluralChain rest)
    | none => (their rest).map fun _ => w

/-- The ablative, and what comes before it. -/
def nounAblative : Suffix := fun w =>
  (ablative w).map fun rest =>
    match possessive rest with
    | some rest => pluralChain rest
    | none =>
    match plural rest with
    | some rest => attempt relativeChain rest
    | none => attempt relativeChain rest

/-- The genitive or instrumental, and what comes before it. -/
def nounGenitive : Suffix := fun w =>
  (either genitive instrumental w).map fun rest =>
    match following plural relativeChain rest with
    | some rest => rest
    | none =>
      let rest := attempt plural rest
      match either possessive his rest with
      | some rest => pluralChain rest
      | none => attempt relativeChain rest

/-- The locative, accusative or dative, and what comes before it. -/
def nounLocative : Suffix := fun w =>
  (either locative (either accusative dative) w).map fun rest =>
    match possessive rest with
    | some rest =>
      let rest := attempt plural rest
      attempt relativeChain rest
    | none =>
    match plural rest with
    | some rest => attempt relativeChain rest
    | none => rest

/-- A possessive, and a plural before it. -/
def nounPossessive : Suffix := fun w => (either possessive his w).map pluralChain

/-- The suffixes of nouns. -/
def noun : Suffix :=
  [nounPlural, nounManner, nounLocativeN, nounAblativeN, nounAblative, nounGenitive, their,
   relativeChain, nounLocative].foldr either nounPossessive

/-! ## The last consonant -/

/-- Puts a vowel after a final `d` or `g` that is in harmony with the last one. -/
def appendVowel (w : Back) : Back :=
  if headIs (oneOf "dg") w then
    match w.find? isVowel with
    | some v =>
      if oneOf "aı" v then 'ı' :: w
      else if oneOf "ei" v then 'i' :: w
      else if oneOf "ou" v then 'u' :: w
      else 'ü' :: w
    | none => w
  else w

/-- Consonants and the form that they have at the end of a word. -/
def hardened : List (Char × Char) := [('b', 'p'), ('c', 'ç'), ('d', 't'), ('ğ', 'k')]

/-- The last consonant in the form that it has at the end of a word. -/
def harden : Back → Back
  | c :: rest => (hardened.lookup c).getD c :: rest
  | [] => []

/-- Are there two vowels at least? -/
def hasSyllables (word : List Char) : Bool := 2 ≤ (word.filter isVowel).length

/-- Words that are left as they are. -/
def isReserved (w : Back) : Bool := w == "ad".toList.reverse || w == "soyad".toList.reverse

/-- The stem of a word. -/
def stem (word : List Char) : List Char :=
  if hasSyllables word then
    let (goesOn, w) := predicate word.reverse
    if goesOn then
      let w := attempt noun w
      (if isReserved w then w else harden (appendVowel w)).reverse
    else w.reverse
  else word

end TextAnalysis.Stemming.Turkish
