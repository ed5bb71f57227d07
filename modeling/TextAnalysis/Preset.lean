import TextAnalysis.Chain
import TextAnalysis.Filter.Building

/-!
# Presets

Ready-made pipelines with settings: keywords as they are written, simple words in lower case, the
standard pipeline without stop words, the stemming pipeline behind it, and the pipeline for one
language.
-/

set_option autoImplicit false

namespace TextAnalysis

/-- Which words the standard and stemming presets stop. -/
inductive StopSelection where
  /-- The English words that a stop filter stops unless it is told otherwise. -/
  | standard
  /-- There is no stop filter. -/
  | disabled
  /-- The given words. -/
  | words (set : WordSet)
  /-- The words of a language. -/
  | language (code : String)
  deriving DecidableEq

/-- The stop filter for a selection; none where it is disabled or the language has no list. -/
def StopSelection.filter? (s : StopSelection) (minSize : Nat) (maxSize : Option Nat) :
    Build (Option StopFilter) :=
  match s with
  | disabled => pure none
  | standard => pure (some { minSize := minSize, maxSize := maxSize })
  | words set => pure (some { words := set, minSize := minSize, maxSize := maxSize })
  | language code =>
    match StopFilter.ofLanguage? code with
    | some f => pure (some { f with minSize := minSize, maxSize := maxSize })
    | none => do
      Build.debug
        ("no stop words for language " ++ Text.Quoted.quote code ++ ", omitting stop filter")
      return none

/-- Settings of the preset for keywords, which stand between blanks or commas. -/
structure KeywordPreset where
  /-- Turn keywords into lower case. -/
  lowercase : Bool := false
  /-- Split at commas instead of blanks, and take blanks off the pieces. -/
  commas : Bool := false
  deriving DecidableEq

/-- Settings of the preset for words in lower case. -/
structure SimplePreset where
  /-- The pattern of words, or of what separates them. -/
  expression : String := Tokenizer.wordPattern
  /-- Split at the matches of the pattern. -/
  gaps : Bool := false
  deriving DecidableEq

/-- Settings of the preset that also stops words. -/
structure StandardPreset where
  expression : String := Tokenizer.wordPattern
  gaps : Bool := false
  /-- The words that are stopped. -/
  stopWords : StopSelection := .standard
  /-- Shorter words are stopped. -/
  minSize : Nat := 2
  /-- Longer words are stopped. -/
  maxSize : Option Nat := none
  deriving DecidableEq

/-- Settings of the preset that also stems words. -/
structure StemmingPreset where
  expression : String := Tokenizer.wordPattern
  gaps : Bool := false
  stopWords : StopSelection := .standard
  minSize : Nat := 2
  maxSize : Option Nat := none
  /-- The language of the words. -/
  language : Option String := none
  /-- Words that are not stemmed. -/
  ignored : WordSet := ∅
  /-- The number of stems that are cached. -/
  cacheSize : Option Nat := some defaultCacheSize
  /-- A stemming function of the user, in place of the rules of the language. -/
  custom : Option Stemmer := none
  deriving DecidableEq

/-- Settings of the preset for one language. -/
structure LanguagePreset where
  /-- The code or name of the language. -/
  language : String := "en"
  expression : String := Tokenizer.wordPattern
  gaps : Bool := false
  /-- Words that are not stemmed. -/
  ignored : WordSet := ∅
  deriving DecidableEq

/-- Adds a filter where there is one. -/
def Pipeline.addFilter? (p : Pipeline) (f : Option Filter) : Pipeline :=
  match f with
  | some f => p.addFilter f
  | none => p

/-- The pipeline that every preset but that for keywords starts with: words, as an expression has them,
in lower case. -/
def lowercaseWords (expression : String) (gaps : Bool) (name : String) : Build Pipeline := do
  let t ← Build.ofExcept (Tokenizer.ofPattern expression gaps)
  return ((Pipeline.ofTokenizer t).addFilter .lowercase).withName name

/-- The pipeline of the preset. -/
def KeywordPreset.build (s : KeywordPreset) : Build Pipeline := do
  let t ← Build.ofExcept (if s.commas then Tokenizer.betweenCommas else Tokenizer.spaceSeparated)
  let filters :=
    (if s.commas then [Filter.strip] else []) ++ (if s.lowercase then [Filter.lowercase] else [])
  let chain := filters.foldl (fun c f => c.andThen (.ofStage (.filter f)))
    (Chain.ofStage (.tokenizer t))
  return (← Build.ofExcept chain.build).withName "keyword"

/-- The pipeline of the preset. -/
def SimplePreset.build (s : SimplePreset) : Build Pipeline :=
  lowercaseWords s.expression s.gaps "simple"

/-- The pipeline of the preset. -/
def StandardPreset.build (s : StandardPreset) : Build Pipeline := do
  let p ← lowercaseWords s.expression s.gaps "standard"
  let stop ← s.stopWords.filter? s.minSize s.maxSize
  return p.addFilter? (stop.map .stop)

/-- The stem filter of the preset. -/
def StemmingPreset.stemFilter (s : StemmingPreset) : Build StemFilter := do
  let f ←
    match s.custom, s.language with
    | some stemmer, _ => Build.stemFilter stemmer
    | none, some code => StemFilter.ofLanguageOrEnglish code
    | none, none => StemFilter.english
  return (f.ignoring s.ignored.toList).withLimit s.cacheSize

/-- The pipeline of the preset. -/
def StemmingPreset.build (s : StemmingPreset) : Build Pipeline := do
  let p ← lowercaseWords s.expression s.gaps "stemming"
  let stop ← s.stopWords.filter? s.minSize s.maxSize
  let stem ← s.stemFilter
  return (p.addFilter? (stop.map .stop)).addFilter (.stem stem)

/-- The pipeline of the preset. What the language does not have is left out. -/
def LanguagePreset.build (s : LanguagePreset) : Build Pipeline := do
  let p ← lowercaseWords s.expression s.gaps ("language_" ++ s.language)
  let stop := StopFilter.ofLanguage? s.language
  if stop.isNone then
    Build.debug ("no stop words for language " ++ Text.Quoted.quote s.language)
  let stem ← StemFilter.ofLanguage? s.language
  if stem.isNone then Build.debug ("no stemmer for language " ++ Text.Quoted.quote s.language)
  return (p.addFilter? (stop.map .stop)).addFilter?
    (stem.map fun f => .stem (f.ignoring s.ignored.toList))

/-- A preset with its settings. -/
inductive Preset where
  | keyword (s : KeywordPreset)
  | simple (s : SimplePreset)
  | standard (s : StandardPreset)
  | stemming (s : StemmingPreset)
  | language (s : LanguagePreset)
  deriving DecidableEq

namespace Preset

/-- The names of the presets. -/
def names : List String := ["keyword", "simple", "standard", "stemming", "language"]

/-- The name of a preset. -/
def name : Preset → String
  | keyword _ => "keyword"
  | simple _ => "simple"
  | standard _ => "standard"
  | stemming _ => "stemming"
  | language _ => "language"

/-- The pipeline of a preset. -/
def build : Preset → Build Pipeline
  | keyword s => s.build
  | simple s => s.build
  | standard s => s.build
  | stemming s => s.build
  | language s => s.build

/-- The preset with a name and otherwise the usual settings. A language counts for the last two,
and the last one must have it. -/
def ofName (name : String) (language : Option String) : Except Failure Preset :=
  if name = "keyword" then .ok (.keyword {})
  else if name = "simple" then .ok (.simple {})
  else if name = "standard" then .ok (.standard {})
  else if name = "stemming" then .ok (.stemming { language := language })
  else if name = "language" then
    match language with
    | some code => .ok (.language { language := code })
    | none => .error (.config .missingLanguage)
  else .error (.config (.unknownAnalyzer name names))

end Preset

/-- What a configuration says: a preset, and the options to analyse with. -/
structure Config where
  preset : Preset := .standard {}
  options : Options := {}

end TextAnalysis
