import TextAnalysis.Language.StopWords
import TextAnalysis.Number.Saturating
import TextAnalysis.Token

/-!
# Stop filters

A stop filter finds the words that carry no meaning of their own: those of its set, and those that
are too short or too long. It drops their tokens, or marks them where the token says so, and can
close the gaps that dropped tokens leave in the positions.
-/

set_option autoImplicit false

namespace TextAnalysis

/-- The English words that a stop filter stops unless it is told otherwise. -/
def defaultStopWords : WordSet :=
  WordSet.ofWords
    ["a", "an", "and", "are", "as", "at", "be", "by", "can", "for", "from", "have", "if", "in",
     "is", "it", "may", "not", "of", "on", "or", "tbd", "that", "the", "this", "to", "us", "we",
     "when", "will", "with", "yet", "you", "your"]

/-- The settings of a stop filter. -/
structure StopFilter where
  /-- The stop words. -/
  words : WordSet := defaultStopWords
  /-- Shorter tokens are stopped. -/
  minSize : Nat := 2
  /-- Longer tokens are stopped. -/
  maxSize : Option Nat := none
  /-- Number the remaining tokens without gaps. -/
  renumber : Bool := false
  deriving DecidableEq

namespace StopFilter

/-- The stop filter with the words of a language, where there is a list. -/
def ofLanguage? (code : String) : Option StopFilter := do
  let l ← Language.ofCode? code
  let words ← l.stopWords?
  return { words := words }

/-- Is the word in the set? -/
def isStopWord (f : StopFilter) (word : String) : Bool := f.words.contains word

/-- Does the filter stop tokens with this text? -/
def stops (f : StopFilter) (text : String) : Bool :=
  let size := text.length
  decide (size < f.minSize) || f.maxSize.any (fun most => decide (most < size)) ||
    f.isStopWord text

/-- Passes a token, with the last position given so far: the token and the new last position, and
whether the token is kept. -/
def apply (f : StopFilter) (last : Option Nat) (t : Token) : Token × Option Nat × Bool :=
  if f.stops t.text then
    if t.removeStopped then (t, last, false) else ({ t with stopped := true }, last, true)
  else
    let t := { t with stopped := false }
    match f.renumber, t.position with
    | true, some p =>
      let p := match last with
        | some last => Saturating.add last 1
        | none => p
      ({ t with position := some p }, some p, true)
    | _, _ => (t, last, true)

end StopFilter

end TextAnalysis
