import TextAnalysis.Stemming.Region
import TextAnalysis.Text.Fields

/-!
# Endings of words

A step of a stemmer makes a new word of a word, where it applies. Most steps look for the longest
ending of the word in a table; the table says what becomes of the word when that ending is taken
off, and a shorter ending is not tried where the longest one has to stay. Words are read from their
end throughout.
-/

set_option autoImplicit false

namespace TextAnalysis.Stemming

/-- A step: the word that comes of a word, where the step applies. In a table of endings the word is
what is left when the ending has been taken off. -/
abbrev Step := Regions → Back → Option Back

/-! ## What may be done about an ending -/

/-- Leaves the ending off. -/
def remove : Step := fun _ rest => some rest

/-- Keeps the word as it is. -/
def keep : Step := fun _ _ => none

/-- Puts letters in the place of the ending. -/
def replace (letters : String) : Step :=
  let back := letters.toList.reverse
  fun _ rest => some (back ++ rest)

/-- Only where the ending starts in the first region. -/
def inR1 (s : Step) : Step := fun g rest => if g.r1 ≤ rest.length then s g rest else none

/-- Only where the ending starts in the second region. -/
def inR2 (s : Step) : Step := fun g rest => if g.r2 ≤ rest.length then s g rest else none

/-- Only where the ending starts in the region of verb endings. -/
def inRV (s : Step) : Step := fun g rest => if g.rv ≤ rest.length then s g rest else none

/-- Only where a letter of a kind comes before the ending. -/
def after (kind : Char → Bool) (s : Step) : Step := fun g rest =>
  if headIs kind rest then s g rest else none

/-- A step, and then another on what comes of it, which need not apply. -/
def andThen (s t : Step) : Step := fun g w => (s g w).map fun w => (t g w).getD w

/-- The first of two steps that applies. -/
def orElse (s t : Step) : Step := fun g w =>
  match s g w with
  | some w => some w
  | none => t g w

/-- What comes of a word by a step, or the word itself where the step does not apply. -/
def perform (s : Step) (g : Regions) (w : Back) : Back := (s g w).getD w

/-- What comes of a word by steps taken one after the other. -/
def performAll (steps : List Step) (g : Regions) (w : Back) : Back :=
  steps.foldl (fun w s => perform s g w) w

/-! ## Tables of endings -/

/-- What is left of a word when an ending is taken off; both are read from the end. -/
def dropEnding? : Back → Back → Option Back
  | [], w => some w
  | _ :: _, [] => none
  | e :: es, c :: cs => if e = c then dropEnding? es cs else none

/-- What is left of a word when an ending, written as usual, is taken off. -/
def without? (ending : String) (w : Back) : Option Back := dropEnding? ending.toList.reverse w

/-- Does a word end like this? -/
def endsWith (ending : String) (w : Back) : Bool := (without? ending w).isSome

/-- A table of endings, each with what is done about it. -/
structure Endings where
  entries : List (Back × Step)

namespace Endings

/-- The table of some groups of endings, each group written in a row. -/
def ofGroups (groups : List (String × Step)) : Endings :=
  ⟨groups.flatMap fun group =>
    (Text.fields group.1).map fun ending => (ending.toList.reverse, group.2)⟩

/-- The table of a single group. -/
def ofGroup (endings : String) (s : Step) : Endings := ofGroups [(endings, s)]

/-- The longest ending of a word that leaves a given number of letters: what is done about it, and
what it leaves. `best` is the longest one found so far. -/
def longestFrom (least : Nat) (w : Back) (best : Option (Step × Back)) :
    List (Back × Step) → Option (Step × Back)
  | [] => best
  | (ending, s) :: entries =>
    match dropEnding? ending w with
    | none => longestFrom least w best entries
    | some rest =>
      let better :=
        decide (least ≤ rest.length) &&
          match best with
          | none => true
          | some (_, other) => decide (rest.length < other.length)
      longestFrom least w (if better then some (s, rest) else best) entries

/-- The longest ending of a word that leaves a given number of letters. -/
def longest? (t : Endings) (least : Nat) (w : Back) : Option (Step × Back) :=
  longestFrom least w none t.entries

/-- Does what the table says about the longest ending. -/
def step (t : Endings) : Step := fun g w =>
  (t.longest? 0 w).bind fun found => found.1 g found.2

/-- Does what the table says about the longest ending in the first region. -/
def stepInR1 (t : Endings) : Step := fun g w =>
  (t.longest? g.r1 w).bind fun found => found.1 g found.2

/-- Does what the table says about the longest ending in the second region. -/
def stepInR2 (t : Endings) : Step := fun g w =>
  (t.longest? g.r2 w).bind fun found => found.1 g found.2

/-- Does what the table says about the longest ending in the region of verb endings. -/
def stepInRV (t : Endings) : Step := fun g w =>
  (t.longest? g.rv w).bind fun found => found.1 g found.2

end Endings

/-- Takes off one ending. -/
def removing (ending : String) (s : Step) : Step := (Endings.ofGroup ending s).step

end TextAnalysis.Stemming
