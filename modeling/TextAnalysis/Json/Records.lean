import TextAnalysis.Json.Decode
import TextAnalysis.Token

/-!
# Options, tokens and languages as JSON

The JSON forms of options, tokens and languages, in both directions.
-/

set_option autoImplicit false

namespace TextAnalysis

open Json (Decoder Draft)

/-- A map from texts to texts, as an object. -/
def Attributes.toJson (a : Attributes) : Json :=
  .object (a.toList.map fun e => (e.1, .string e.2))

namespace Options

/-- The options as an object. -/
def toJson (o : Options) : Json :=
  .object
    [("positions", .bool o.positions),
     ("chars", .bool o.offsets),
     ("keep_original", .bool o.keepUnfiltered),
     ("remove_stopwords", .bool o.removeStopped),
     ("start_pos", .count o.firstPosition),
     ("start_char", .count o.firstOffset),
     ("mode", .string o.mode),
     ("tokenize", .bool o.tokenize),
     ("skip_morphological", .bool o.keepForms),
     ("attributes", Attributes.toJson o.attributes)]

/-- The fields of options, none of which must be there. -/
def fields : List (Json.Field Options) :=
  [.opt "positions" Decoder.truth fun o b => { o with positions := b },
   .opt "chars" Decoder.truth fun o b => { o with offsets := b },
   .opt "keep_original" Decoder.truth fun o b => { o with keepUnfiltered := b },
   .opt "remove_stopwords" Decoder.truth fun o b => { o with removeStopped := b },
   .opt "start_pos" Decoder.count fun o n => { o with firstPosition := n },
   .opt "start_char" Decoder.count fun o n => { o with firstOffset := n },
   .opt "mode" Decoder.text fun o s => { o with mode := s },
   .opt "tokenize" Decoder.truth fun o b => { o with tokenize := b },
   .opt "skip_morphological" Decoder.truth fun o b => { o with keepForms := b },
   .opt "attributes" Decoder.textMap fun o a => { o with attributes := a }]

/-- Takes options out of a draft. -/
def decode : Decoder Options := Decoder.record {} fields

end Options

namespace Token

/-- A weight as a number; null where it is not finite. -/
def boostJson (x : Binary32) : Json :=
  if x.isNaN || x.isInfinite then .null
  else if x.isZero then .decimal x.isNegative ⟨0, 0⟩
  else .decimal x.isNegative x.shortest

/-- The token as an object. -/
def toJson (t : Token) : Json :=
  .object
    [("text", .string t.text),
     ("original_text", .optional .string t.unfiltered),
     ("boost", boostJson t.boost),
     ("stopped", .bool t.stopped),
     ("position", .optional .count t.position),
     ("start_char", .optional .count t.startOffset),
     ("end_char", .optional .count t.endOffset),
     ("attributes", Attributes.toJson t.attributes),
     ("mode", .string t.mode),
     ("remove_stopwords", .bool t.removeStopped)]

/-- The fields of a token. Those that may have no value may be missing. -/
def fields : List (Json.Field Token) :=
  [.req "text" Decoder.text fun t s => { t with text := s },
   .opt "original_text" (Decoder.optional Decoder.text) fun t s => { t with unfiltered := s },
   .req "boost" Decoder.number fun t x => { t with boost := x },
   .req "stopped" Decoder.truth fun t b => { t with stopped := b },
   .opt "position" (Decoder.optional Decoder.count) fun t n => { t with position := n },
   .opt "start_char" (Decoder.optional Decoder.count) fun t n => { t with startOffset := n },
   .opt "end_char" (Decoder.optional Decoder.count) fun t n => { t with endOffset := n },
   .req "attributes" Decoder.textMap fun t a => { t with attributes := a },
   .req "mode" Decoder.text fun t s => { t with mode := s },
   .req "remove_stopwords" Decoder.truth fun t b => { t with removeStopped := b }]

/-- Takes a token out of a draft. -/
def decode : Decoder Token := Decoder.record {} fields

end Token

end TextAnalysis
