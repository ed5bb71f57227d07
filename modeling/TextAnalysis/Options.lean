import Std.Data.ExtTreeMap
import TextAnalysis.Number.Saturating

/-!
# Options of an analysis

What a caller asks of one analysis: which annotations tokens carry, whether stopped tokens are
dropped or marked, whether word forms are kept, and the mode that filters may depend on.
-/

set_option autoImplicit false

namespace TextAnalysis

/-- Named flags, in the order of their names. -/
abbrev Attributes := Std.ExtTreeMap String String

/-- The options of one analysis. -/
structure Options where
  /-- Record the position of every token. -/
  positions : Bool := false
  /-- Record where every token stands in the text, in bytes. -/
  offsets : Bool := false
  /-- Keep the text of every token as it was before filtering. -/
  keepUnfiltered : Bool := false
  /-- Drop stopped tokens instead of marking them. -/
  removeStopped : Bool := true
  /-- The position of the first token. -/
  firstPosition : Nat := 0
  /-- What is added to every offset. -/
  firstOffset : Nat := 0
  /-- The purpose of the analysis, such as indexing or searching. -/
  mode : String := ""
  /-- Cut the text into tokens; otherwise the whole text is one token. -/
  tokenize : Bool := true
  /-- Leave out the filters that change word forms. -/
  keepForms : Bool := false
  /-- Flags that every token carries. -/
  attributes : Attributes := ∅

namespace Options

/-- Are all options the same? -/
def beq (a b : Options) : Bool :=
  a.positions == b.positions && a.offsets == b.offsets && a.keepUnfiltered == b.keepUnfiltered &&
    a.removeStopped == b.removeStopped && a.firstPosition == b.firstPosition &&
    a.firstOffset == b.firstOffset && a.mode == b.mode && a.tokenize == b.tokenize &&
    a.keepForms == b.keepForms && a.attributes == b.attributes

/-- The options for indexing: a mode of its own, and positions. -/
def index : Options := { mode := "index", positions := true }

/-- The options for searching: a mode of its own. -/
def query : Options := { mode := "query" }

/-- Adds a flag that every token carries. -/
def withAttribute (o : Options) (key value : String) : Options :=
  { o with attributes := o.attributes.insert key value }

end Options

end TextAnalysis
