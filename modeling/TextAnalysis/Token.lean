import TextAnalysis.Number.Binary32
import TextAnalysis.Options
import TextAnalysis.Text.Described

/-!
# Tokens

A token is a piece of text with its annotations. It is also the record that a stream of tokens
changes at every step: `Token.load` puts a new text into it and keeps the fields that belong to
the stream.
-/

set_option autoImplicit false

namespace TextAnalysis

/-- A piece of text on its way through an analysis. -/
structure Token where
  /-- The text as it stands after the filters passed so far. -/
  text : String := ""
  /-- The text before any filter, where it is kept. -/
  unfiltered : Option String := none
  /-- The weight of the token. -/
  boost : Binary32 := Binary32.one
  /-- Did a stop filter mark the token? -/
  stopped : Bool := false
  /-- The position among the tokens, where it is recorded. -/
  position : Option Nat := none
  /-- Where the token starts in the text, in bytes. -/
  startOffset : Option Nat := none
  /-- Where the token ends in the text, in bytes. -/
  endOffset : Option Nat := none
  /-- Flags from the options of the analysis. -/
  attributes : Attributes := ∅
  /-- The mode of the analysis. -/
  mode : String := ""
  /-- Do stop filters drop tokens instead of marking them? -/
  removeStopped : Bool := true

namespace Token

/-- The record with which a stream under the given options starts. -/
def ofOptions (o : Options) : Token :=
  { attributes := o.attributes, mode := o.mode, removeStopped := o.removeStopped }

/-- Puts a new text into the record and undoes what filters did to the one before. -/
def load (t : Token) (text : String) (keepUnfiltered : Bool) : Token :=
  { t with
    text := text
    unfiltered := if keepUnfiltered then some text else none
    boost := Binary32.one
    stopped := false }

/-- Equality of tokens, in which weights are compared as numbers. -/
def same (a b : Token) : Bool :=
  a.text == b.text && a.unfiltered == b.unfiltered && a.boost.numEq b.boost &&
    a.stopped == b.stopped && a.position == b.position && a.startOffset == b.startOffset &&
    a.endOffset == b.endOffset && a.attributes == b.attributes && a.mode == b.mode &&
    a.removeStopped == b.removeStopped

/-- The layout of weights in descriptions: positional from one ten-thousandth up to the sixteenth
power of ten. -/
def boostLayout : Binary32.Layout := ⟨-4, 17⟩

/-- The written form of a weight. -/
def describeBoost (x : Binary32) : String :=
  if x.isNaN then "NaN"
  else if x.isInfinite then (if x.isNegative then "-inf" else "inf")
  else x.writeFinite boostLayout

/-- The description of a token, which logging filters report. -/
def describe (t : Token) : String :=
  Text.Described.record "Token"
    [("text", Text.Quoted.quote t.text),
     ("original_text", Text.Described.optional (t.unfiltered.map Text.Quoted.quote)),
     ("boost", describeBoost t.boost),
     ("stopped", Text.Described.truth t.stopped),
     ("position", Text.Described.optional (t.position.map Text.Described.count)),
     ("start_char", Text.Described.optional (t.startOffset.map Text.Described.count)),
     ("end_char", Text.Described.optional (t.endOffset.map Text.Described.count)),
     ("attributes",
      Text.Described.map
        (t.attributes.toList.map fun e => (Text.Quoted.quote e.1, Text.Quoted.quote e.2))),
     ("mode", Text.Quoted.quote t.mode),
     ("remove_stopwords", Text.Described.truth t.removeStopped)]

end Token

end TextAnalysis
