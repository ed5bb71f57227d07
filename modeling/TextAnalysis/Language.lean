import TextAnalysis.Text.Words
import TextAnalysis.Unicode.Case

/-!
# Languages

The languages that have a stemmer, their codes and names, and how a code or name written by a user
is resolved: without regard to the case of ASCII letters and to white space around it, and for codes
without regard to what follows a dash or underscore.
-/

set_option autoImplicit false

namespace TextAnalysis

/-- The languages. -/
inductive Language where
  | arabic
  | danish
  | dutch
  | english
  | finnish
  | french
  | german
  | greek
  | hungarian
  | italian
  | norwegian
  | portuguese
  | romanian
  | russian
  | spanish
  | swedish
  | tamil
  | turkish
  deriving DecidableEq, Repr

namespace Language

/-- Every language, in the order of their names. -/
def all : List Language :=
  [arabic, danish, dutch, english, finnish, french, german, greek, hungarian, italian, norwegian,
   portuguese, romanian, russian, spanish, swedish, tamil, turkish]

/-- The two-letter code. -/
def code : Language → String
  | arabic => "ar"
  | danish => "da"
  | dutch => "nl"
  | english => "en"
  | finnish => "fi"
  | french => "fr"
  | german => "de"
  | greek => "el"
  | hungarian => "hu"
  | italian => "it"
  | norwegian => "no"
  | portuguese => "pt"
  | romanian => "ro"
  | russian => "ru"
  | spanish => "es"
  | swedish => "sv"
  | tamil => "ta"
  | turkish => "tr"

/-- The English name in lower case. -/
def name : Language → String
  | arabic => "arabic"
  | danish => "danish"
  | dutch => "dutch"
  | english => "english"
  | finnish => "finnish"
  | french => "french"
  | german => "german"
  | greek => "greek"
  | hungarian => "hungarian"
  | italian => "italian"
  | norwegian => "norwegian"
  | portuguese => "portuguese"
  | romanian => "romanian"
  | russian => "russian"
  | spanish => "spanish"
  | swedish => "swedish"
  | tamil => "tamil"
  | turkish => "turkish"

/-- The English name with a capital, as in descriptions. -/
def title (l : Language) : String := l.name.capitalize

/-- Does the character separate a code from a region? -/
def isRegionMark (c : Char) : Bool := c == '-' || c == '_'

/-- A code or name as it is compared: without white space around it and in lower case. -/
def normalized (s : String) : List Char := (Text.trim s.toList).map Unicode.lowercaseAscii

/-- The language with the given code or name. -/
def ofCode? (s : String) : Option Language :=
  let written := normalized s
  let base := written.takeWhile fun c => !isRegionMark c
  all.find? fun l => l.code.toList == base || l.name.toList == written

/-- No language is missing from the list. -/
theorem mem_all (l : Language) : l ∈ all := by cases l <;> decide

end Language

end TextAnalysis
