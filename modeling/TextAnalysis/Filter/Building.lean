import TextAnalysis.Filter
import TextAnalysis.Workspace

/-!
# Building filters for languages

Stop filters and stem filters for languages that are named by a user, where a language may be
unknown or may have no list of stop words. That is no failure; it is reported to the journal.
-/

set_option autoImplicit false

namespace TextAnalysis

/-- Adds the stop words of a language to a stop filter. -/
def StopFilter.addLanguage (f : StopFilter) (code : String) : Build StopFilter :=
  match StopFilter.ofLanguage? code with
  | some g => pure { f with words := f.words.addWords g.words.toList }
  | none => do
    Build.debug ("no stop words available for language " ++ Text.Quoted.quote code)
    return f

namespace StemFilter

/-- The stem filter for a language, where it is known. -/
def ofLanguage? (code : String) : Build (Option StemFilter) :=
  match Language.ofCode? code with
  | some l => do return some (← Build.stemFilter (.ofLanguage l))
  | none => pure none

/-- The stem filter for English words. -/
def english : Build StemFilter := Build.stemFilter (.ofLanguage .english)

/-- The stem filter for a language, or for English where the language is not known. -/
def ofLanguageOrEnglish (code : String) : Build StemFilter := do
  match ← ofLanguage? code with
  | some f => return f
  | none =>
    Build.debug ("no stemmer for language " ++ Text.Quoted.quote code ++ ", using english")
    english

end StemFilter

end TextAnalysis
