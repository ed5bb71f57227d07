import TextAnalysis.Language
import TextAnalysis.Stemming.Arabic
import TextAnalysis.Stemming.Danish
import TextAnalysis.Stemming.Dutch
import TextAnalysis.Stemming.English
import TextAnalysis.Stemming.Finnish
import TextAnalysis.Stemming.French
import TextAnalysis.Stemming.German
import TextAnalysis.Stemming.Greek
import TextAnalysis.Stemming.Hungarian
import TextAnalysis.Stemming.Italian
import TextAnalysis.Stemming.Norwegian
import TextAnalysis.Stemming.Portuguese
import TextAnalysis.Stemming.Romanian
import TextAnalysis.Stemming.Russian
import TextAnalysis.Stemming.Spanish
import TextAnalysis.Stemming.Swedish
import TextAnalysis.Stemming.Tamil
import TextAnalysis.Stemming.Turkish

/-!
# Stems of words

The stem of a word by the rules of its language.
-/

set_option autoImplicit false

namespace TextAnalysis.Language

/-- The stemmer of a language, on letters. -/
def stemLetters : Language → List Char → List Char
  | arabic => Stemming.Arabic.stem
  | danish => Stemming.Danish.stem
  | dutch => Stemming.Dutch.stem
  | english => Stemming.English.stem
  | finnish => Stemming.Finnish.stem
  | french => Stemming.French.stem
  | german => Stemming.German.stem
  | greek => Stemming.Greek.stem
  | hungarian => Stemming.Hungarian.stem
  | italian => Stemming.Italian.stem
  | norwegian => Stemming.Norwegian.stem
  | portuguese => Stemming.Portuguese.stem
  | romanian => Stemming.Romanian.stem
  | russian => Stemming.Russian.stem
  | spanish => Stemming.Spanish.stem
  | swedish => Stemming.Swedish.stem
  | tamil => Stemming.Tamil.stem
  | turkish => Stemming.Turkish.stem

/-- The stem of a word. -/
def stem (l : Language) (word : String) : String := String.ofList (l.stemLetters word.toList)

end TextAnalysis.Language
