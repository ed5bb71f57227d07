import Std.Data.ExtTreeSet
import TextAnalysis.Unicode.Letters

/-!
# Word sets and white space around texts

Sets of words, which stop filters and stemming filters look words up in, and the removal of white
space at both ends of a text.
-/

set_option autoImplicit false

namespace TextAnalysis

/-- A set of words. -/
abbrev WordSet := Std.ExtTreeSet String

/-- The set of the listed words. -/
def WordSet.ofWords (words : List String) : WordSet := words.foldl (fun s w => s.insert w) ∅

/-- A set with the listed words added. -/
def WordSet.addWords (s : WordSet) (words : List String) : WordSet :=
  words.foldl (fun s w => s.insert w) s

namespace Text

/-- A text without the white space at its start. -/
def dropWhite (cs : List Char) : List Char := cs.dropWhile Unicode.isWhite

/-- A text without the white space at both ends. -/
def trim (cs : List Char) : List Char := (dropWhite (dropWhite cs).reverse).reverse

end Text

end TextAnalysis
