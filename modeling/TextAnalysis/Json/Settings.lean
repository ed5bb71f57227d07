import TextAnalysis.Json.Records
import TextAnalysis.Preset

/-!
# Languages, presets and configurations as JSON

The JSON forms of languages, stop word selections, presets and configurations, in both directions.
A preset is an object whose member `type` names it; its settings are the other members.
-/

set_option autoImplicit false

namespace TextAnalysis

open Json (Decoder Draft)

/-- A set of words as an array, in order. -/
def WordSet.toJson (s : WordSet) : Json := .array (s.toList.map .string)

namespace Language

/-- A language as its name. -/
def toJson (l : Language) : Json := .string l.name

/-- The language with a name. -/
def ofName? (name : String) : Option Language := all.find? fun l => l.name == name

/-- The language with a name, or a fault. -/
def byName (name : String) : Except JsonFault Language :=
  match ofName? name with
  | some l => .ok l
  | none => .error .mismatch

/-- Takes a language out of a draft: its name, or an object whose one member has its name and no
value. -/
def decode : Decoder Language
  | .string s => byName s
  | .object members ending =>
    match members with
    | [] => .error (match ending with | .broken fault => fault | .closed => .malformed)
    | (name, d) :: rest => do
      let l ← byName name
      match d with
      | .null =>
        match rest, ending with
        | [], .closed => return l
        | [], .broken fault => .error fault
        | _ :: _, _ => .error .malformed
      | d => .error d.mismatch
  | .broken used _ => .error used
  | _ => .error .malformed

end Language

namespace StopSelection

/-- A selection: a word for those without data, else an object with one member. -/
def toJson : StopSelection → Json
  | standard => .string "default"
  | disabled => .string "disabled"
  | words set => .object [("words", WordSet.toJson set)]
  | language code => .object [("language", .string code)]

/-- The selection with a name and no data. -/
def byName (name : String) : Except JsonFault StopSelection :=
  if name = "default" then .ok .standard
  else if name = "disabled" then .ok .disabled
  else .error .mismatch

/-- Takes a selection out of a draft. -/
def decode : Decoder StopSelection
  | .string s => byName s
  | .object [(name, d)] ending => do
    ending.check
    if name = "words" then (Decoder.words d).map .words
    else if name = "language" then (Decoder.text d).map .language
    else
      let s ← byName name
      match d with
      | .null => return s
      | .object [] .closed => return s
      | d => .error d.mismatch
  | d => .error d.mismatch

end StopSelection

/-- The settings of the preset, without its name. -/
def KeywordPreset.members (s : KeywordPreset) : List (String × Json) :=
  [("lowercase", .bool s.lowercase), ("commas", .bool s.commas)]

/-- The fields of the settings. -/
def KeywordPreset.fields : List (Json.Field KeywordPreset) :=
  [.opt "lowercase" Decoder.truth fun s b => { s with lowercase := b },
   .opt "commas" Decoder.truth fun s b => { s with commas := b }]

/-- The settings of the preset, without its name. -/
def SimplePreset.members (s : SimplePreset) : List (String × Json) :=
  [("expression", .string s.expression), ("gaps", .bool s.gaps)]

/-- The fields of the settings. -/
def SimplePreset.fields : List (Json.Field SimplePreset) :=
  [.opt "expression" Decoder.text fun s e => { s with expression := e },
   .opt "gaps" Decoder.truth fun s b => { s with gaps := b }]

/-- The settings of the preset, without its name. -/
def StandardPreset.members (s : StandardPreset) : List (String × Json) :=
  [("expression", .string s.expression),
   ("gaps", .bool s.gaps),
   ("stop_words", s.stopWords.toJson),
   ("min_size", .count s.minSize),
   ("max_size", .optional .count s.maxSize)]

/-- The fields of the settings. -/
def StandardPreset.fields : List (Json.Field StandardPreset) :=
  [.opt "expression" Decoder.text fun s e => { s with expression := e },
   .opt "gaps" Decoder.truth fun s b => { s with gaps := b },
   .opt "stop_words" StopSelection.decode fun s w => { s with stopWords := w },
   .opt "min_size" Decoder.count fun s n => { s with minSize := n },
   .opt "max_size" (Decoder.optional Decoder.count) fun s n => { s with maxSize := n }]

/-- The settings of the preset, without its name. A stemming function of the user is left out. -/
def StemmingPreset.members (s : StemmingPreset) : List (String × Json) :=
  [("expression", .string s.expression),
   ("gaps", .bool s.gaps),
   ("stop_words", s.stopWords.toJson),
   ("min_size", .count s.minSize),
   ("max_size", .optional .count s.maxSize),
   ("language", .optional .string s.language),
   ("ignore", WordSet.toJson s.ignored),
   ("cache_size", .optional .count s.cacheSize)]

/-- The fields of the settings. -/
def StemmingPreset.fields : List (Json.Field StemmingPreset) :=
  [.opt "expression" Decoder.text fun s e => { s with expression := e },
   .opt "gaps" Decoder.truth fun s b => { s with gaps := b },
   .opt "stop_words" StopSelection.decode fun s w => { s with stopWords := w },
   .opt "min_size" Decoder.count fun s n => { s with minSize := n },
   .opt "max_size" (Decoder.optional Decoder.count) fun s n => { s with maxSize := n },
   .opt "language" (Decoder.optional Decoder.text) fun s l => { s with language := l },
   .opt "ignore" Decoder.words fun s w => { s with ignored := w },
   .opt "cache_size" (Decoder.optional Decoder.count) fun s n => { s with cacheSize := n }]

/-- The settings of the preset, without its name. -/
def LanguagePreset.members (s : LanguagePreset) : List (String × Json) :=
  [("language", .string s.language),
   ("expression", .string s.expression),
   ("gaps", .bool s.gaps),
   ("ignore", WordSet.toJson s.ignored)]

/-- The fields of the settings. -/
def LanguagePreset.fields : List (Json.Field LanguagePreset) :=
  [.opt "language" Decoder.text fun s l => { s with language := l },
   .opt "expression" Decoder.text fun s e => { s with expression := e },
   .opt "gaps" Decoder.truth fun s b => { s with gaps := b },
   .opt "ignore" Decoder.words fun s w => { s with ignored := w }]

namespace Preset

/-- The settings of a preset, without its name. -/
def members : Preset → List (String × Json)
  | keyword s => s.members
  | simple s => s.members
  | standard s => s.members
  | stemming s => s.members
  | language s => s.members

/-- The preset as an object. -/
def toJson (p : Preset) : Json := .object (("type", .string p.name) :: p.members)

/-- Takes a record out of a value. -/
def ofValue {α : Type} (base : α) (fields : List (Json.Field α)) (wrap : α → Preset) (j : Json) :
    Except JsonFault Preset :=
  (Json.decodeValue (Decoder.record base fields) j).map wrap

/-- The preset with a name and the settings of a value. -/
def ofSettings (name : String) (settings : Json) : Except JsonFault Preset :=
  if name = "keyword" then ofValue {} KeywordPreset.fields keyword settings
  else if name = "simple" then ofValue {} SimplePreset.fields simple settings
  else if name = "standard" then ofValue {} StandardPreset.fields standard settings
  else if name = "stemming" then ofValue {} StemmingPreset.fields stemming settings
  else if name = "language" then ofValue {} LanguagePreset.fields language settings
  else .error .mismatch

/-- The name of a preset, which must be one of those known. -/
def decodeName : Decoder String
  | .string s => if names.contains s then .ok s else .error .mismatch
  | d => .error d.mismatch

/-- The depth to which settings may be nested inside a configuration. -/
def maxDepth : Nat := Json.maxDepth - 2

/-- Separates the name of a preset from its settings. The name may stand anywhere, but only once. -/
def splitMembers (name : Option String) (settings : List (String × Json)) :
    List (String × Draft) → Except JsonFault (Option String × List (String × Json))
  | [] => .ok (name, settings.reverse)
  | (key, d) :: rest =>
    if key = "type" then
      if name.isSome then .error .mismatch
      else do
        let found ← decodeName d
        splitMembers (some found) settings rest
    else do
      let j ← d.value maxDepth
      splitMembers name ((key, j) :: settings) rest

/-- Takes a preset out of a draft: an object, or an array of its name and its settings. -/
def decode : Decoder Preset
  | .object members ending => do
    let (name, settings) ← splitMembers none [] members
    ending.check
    match name with
    | some name => ofSettings name (.object settings)
    | none => .error .mismatch
  | .array items ending =>
    match items with
    | [] => do
      ending.check
      .error .mismatch
    | d :: rest => do
      let name ← decodeName d
      let settings ← Json.itemValues maxDepth rest
      ending.check
      ofSettings name (.array settings)
  | d => .error d.mismatch

end Preset

namespace Config

/-- The configuration as an object. -/
def toJson (c : Config) : Json :=
  .object [("analyzer", c.preset.toJson), ("options", c.options.toJson)]

/-- The fields of a configuration. -/
def fields : List (Json.Field Config) :=
  [.opt "analyzer" Preset.decode fun c p => { c with preset := p },
   .opt "options" Options.decode fun c o => { c with options := o }]

/-- Takes a configuration out of a draft. -/
def decode : Decoder Config := Decoder.record {} fields

/-- Reads a configuration from a text. -/
def ofText (text : String) : Except Failure Config :=
  match Json.decodeText decode text with
  | .ok c => .ok c
  | .error fault => .error (.json fault)

/-- The written form of a configuration. -/
def toText (c : Config) : String := c.toJson.pretty

end Config

end TextAnalysis
