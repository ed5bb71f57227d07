import TextAnalysis.Language
import TextAnalysis.Language.StopWords.Arabic
import TextAnalysis.Language.StopWords.Danish
import TextAnalysis.Language.StopWords.Dutch
import TextAnalysis.Language.StopWords.English
import TextAnalysis.Language.StopWords.Finnish
import TextAnalysis.Language.StopWords.French
import TextAnalysis.Language.StopWords.German
import TextAnalysis.Language.StopWords.Greek
import TextAnalysis.Language.StopWords.Hungarian
import TextAnalysis.Language.StopWords.Italian
import TextAnalysis.Language.StopWords.Norwegian
import TextAnalysis.Language.StopWords.Portuguese
import TextAnalysis.Language.StopWords.Romanian
import TextAnalysis.Language.StopWords.Russian
import TextAnalysis.Language.StopWords.Spanish
import TextAnalysis.Language.StopWords.Swedish
import TextAnalysis.Language.StopWords.Turkish

/-!
# The stop words of languages

Which words carry no meaning of their own in a language. Tamil has no list.
-/

set_option autoImplicit false

namespace TextAnalysis.Language

/-- The listed stop words of a language, where there is a list. -/
def stopWordList? : Language → Option (List String)
  | arabic => some StopWords.arabic
  | danish => some StopWords.danish
  | dutch => some StopWords.dutch
  | english => some StopWords.english
  | finnish => some StopWords.finnish
  | french => some StopWords.french
  | german => some StopWords.german
  | greek => some StopWords.greek
  | hungarian => some StopWords.hungarian
  | italian => some StopWords.italian
  | norwegian => some StopWords.norwegian
  | portuguese => some StopWords.portuguese
  | romanian => some StopWords.romanian
  | russian => some StopWords.russian
  | spanish => some StopWords.spanish
  | swedish => some StopWords.swedish
  | tamil => none
  | turkish => some StopWords.turkish

/-- The set of the stop words of a language, where there is a list. -/
def stopWords? (l : Language) : Option WordSet := l.stopWordList?.map WordSet.ofWords

end TextAnalysis.Language
