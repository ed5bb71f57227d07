import Std.Data.ExtTreeMap
import TextAnalysis.Text.Described
import TextAnalysis.Unicode.Accent

/-!
# Character maps

A character map replaces single characters by texts. A character that it replaces by the empty text
is a break, which splits tokens or is dropped; characters that it does not list are kept or are
breaks, as the map says.

Main statements: `isBreak_iff` (a break is a character without a replacement) and
`applyChars_append` (a map applies to a text character by character).
-/

set_option autoImplicit false

namespace TextAnalysis

/-- What becomes of the characters that a map does not list. -/
inductive Unmapped where
  | keep
  | split
  deriving DecidableEq, Repr

/-- A character map. -/
structure CharMap where
  /-- The listed characters with their replacements. -/
  table : Std.ExtTreeMap Char String := ∅
  /-- What becomes of the others. -/
  unmapped : Unmapped := .keep
  deriving DecidableEq

namespace CharMap

/-- Lists one more character, in place of what was listed for it. -/
def map (m : CharMap) (c : Char) (image : String) : CharMap :=
  { m with table := m.table.insert c image }

/-- Makes a character a break. -/
def breakOn (m : CharMap) (c : Char) : CharMap := m.map c ""

/-- The map of a list of pairs, the later ones in place of earlier ones. -/
def ofPairs (pairs : List (Char × String)) : CharMap :=
  pairs.foldl (fun m p => m.map p.1 p.2) {}

/-- Latin letters without their diacritics. -/
def accentFolding : CharMap := ofPairs Unicode.unaccented

/-- The replacement of a character that the map lists. -/
def get? (m : CharMap) (c : Char) : Option String := m.table[c]?

/-- What a character becomes; nothing where it is a break. -/
def replace? (m : CharMap) (c : Char) : Option (List Char) :=
  match m.get? c with
  | some image => if image.isEmpty then none else some image.toList
  | none =>
    match m.unmapped with
    | .keep => some [c]
    | .split => none

/-- Is the character a break? -/
def isBreak (m : CharMap) (c : Char) : Bool :=
  match m.get? c with
  | some image => image.isEmpty
  | none => m.unmapped == .split

/-- Every character replaced, with the breaks dropped. -/
def applyChars (m : CharMap) (cs : List Char) : List Char :=
  cs.flatMap fun c => (m.replace? c).getD []

/-- A text with every character replaced and the breaks dropped. -/
def apply (m : CharMap) (s : String) : String := String.ofList (m.applyChars s.toList)

/-- The number of listed characters. -/
def size (m : CharMap) : Nat := m.table.size

/-- Does the map list no character? -/
def isEmpty (m : CharMap) : Bool := m.table.isEmpty

/-- A character is a break exactly where the map has nothing in its place. -/
theorem isBreak_iff (m : CharMap) (c : Char) : m.isBreak c = true ↔ m.replace? c = none := by
  unfold isBreak replace?
  split
  · split <;> simp_all
  · split <;> simp_all

/-- Two texts one behind the other are rewritten each on its own. -/
theorem applyChars_append (m : CharMap) (cs ds : List Char) :
    m.applyChars (cs ++ ds) = m.applyChars cs ++ m.applyChars ds := by
  simp [applyChars]

/-- The description of a map. -/
def describe (m : CharMap) : String :=
  Text.Described.record "CharMap"
    [("table",
      Text.Described.map
        (m.table.toList.map fun e => (Text.Quoted.quoteChar e.1, Text.Quoted.quote e.2))),
     ("unmapped", match m.unmapped with
      | .keep => "Keep"
      | .split => "Break")]

end CharMap

end TextAnalysis
