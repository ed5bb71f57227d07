import TextAnalysis.Unicode.Case
import TextAnalysis.Unicode.Script

/-!
# Sets of characters in patterns

A set of characters is kept as the expression that describes it: ranges, classes with a name, and
their complements, unions, intersections and differences. `CharSet.mem` says which characters it
holds, so that the laws of these operations hold by definition.
-/

set_option autoImplicit false

namespace TextAnalysis.Pattern

open TextAnalysis.Unicode (Category Script)

/-- The classes of characters that a pattern can name. -/
inductive CharClass where
  | word
  | digit
  | white
  | kinds (categories : List Category)
  | alphabetic
  | lower
  | upper
  | script (s : Script)
  deriving DecidableEq, Repr

/-- Is the character of the class? -/
def CharClass.mem : CharClass → Char → Bool
  | word, c => Unicode.isWord c
  | digit, c => Unicode.isDigit c
  | white, c => Unicode.isWhite c
  | kinds categories, c => categories.contains (Unicode.category c)
  | alphabetic, c => Unicode.isAlphabetic c
  | lower, c => Unicode.isLower c
  | upper, c => Unicode.isUpper c
  | script s, c => Unicode.isOfScript s c

/-- A set of characters. -/
inductive CharSet where
  | none
  | all
  | range (first last : Char)
  | named (k : CharClass)
  | compl (s : CharSet)
  | union (s t : CharSet)
  | inter (s t : CharSet)
  | diff (s t : CharSet)
  | symmDiff (s t : CharSet)
  /-- The characters equal to one of the set but for their case. -/
  | anyCase (s : CharSet)
  /-- The same for ASCII letters only. -/
  | anyAsciiCase (s : CharSet)
  deriving DecidableEq, Repr

namespace CharSet

/-- An ASCII letter in the other case; any other character itself. -/
def otherAsciiCase (c : Char) : Char :=
  if 'a' ≤ c && c ≤ 'z' then Char.ofNat (c.toNat - 32) else Unicode.lowercaseAscii c

/-- Does the set hold the character? -/
def mem : CharSet → Char → Bool
  | none, _ => false
  | all, _ => true
  | range first last, c => first ≤ c && c ≤ last
  | named k, c => k.mem c
  | compl s, c => !s.mem c
  | union s t, c => s.mem c || t.mem c
  | inter s t, c => s.mem c && t.mem c
  | diff s t, c => s.mem c && !t.mem c
  | symmDiff s t, c => s.mem c != t.mem c
  | anyCase s, c => s.mem c || (Unicode.caseVariants c).any fun d => s.mem d
  | anyAsciiCase s, c => s.mem c || s.mem (otherAsciiCase c)

/-- The set of one character. -/
def single (c : Char) : CharSet := range c c

/-- The union of a list of sets. -/
def unionOf : List CharSet → CharSet
  | [] => none
  | [s] => s
  | s :: rest => union s (unionOf rest)

/-- The set of the listed ranges. -/
def ofRanges (ranges : List (Char × Char)) : CharSet :=
  unionOf (ranges.map fun r => range r.1 r.2)

/-- The ASCII part of a named class. -/
def asciiDigit : CharSet := range '0' '9'

/-- White space in ASCII. -/
def asciiWhite : CharSet := ofRanges [('\t', '\r'), (' ', ' ')]

/-- Letters, digits and underscore of ASCII. -/
def asciiWord : CharSet := ofRanges [('0', '9'), ('A', 'Z'), ('_', '_'), ('a', 'z')]

/-- The complement holds the characters that the set does not hold. -/
@[simp] theorem mem_compl (s : CharSet) (c : Char) : (compl s).mem c = !s.mem c := rfl

/-- A union holds what one of its sets holds. -/
@[simp] theorem mem_union (s t : CharSet) (c : Char) :
    (union s t).mem c = (s.mem c || t.mem c) := rfl

/-- The set of one character holds this character and no other. -/
theorem mem_single (c d : Char) : (single c).mem d = decide (d = c) := by
  simp only [single, mem]
  rw [← Bool.decide_and]
  exact decide_eq_decide.2
    ⟨fun h => Char.le_antisymm h.2 h.1, fun h => h ▸ ⟨Char.le_refl _, Char.le_refl _⟩⟩

end CharSet

end TextAnalysis.Pattern
