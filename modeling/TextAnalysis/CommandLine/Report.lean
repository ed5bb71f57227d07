import TextAnalysis.CommandLine.Arguments
import TextAnalysis.Json.Records
import TextAnalysis.Language.StopWords
import TextAnalysis.Pipeline

/-!
# Reports of the command line

What the commands print, for people or as JSON.
-/

set_option autoImplicit false

namespace TextAnalysis.CommandLine

/-- The outcome of a command. -/
inductive Report where
  /-- The tokens of a text, with the name of the pipeline. -/
  | tokens (pipeline : String) (tokens : List Token)
  /-- The stages of a pipeline. -/
  | stages (p : Pipeline)
  /-- The languages. -/
  | languages

/-- The line of a token: its position and a tab before the text, where it has one; behind the text,
after tabs, where it stands, what it was before filtering if that differs, and whether it is
stopped. -/
def tokenLine (t : Token) : String :=
  let position := match t.position with
    | some p => toString p ++ "\t"
    | none => ""
  let offsets := match t.startOffset, t.endOffset with
    | some first, some last => "\t[" ++ toString first ++ ".." ++ toString last ++ "]"
    | _, _ => ""
  let unfiltered := match t.unfiltered with
    | some s => if s = t.text then "" else "\t(" ++ s ++ ")"
    | none => ""
  let stopped := if t.stopped then "\t(stopped)" else ""
  position ++ t.text ++ offsets ++ unfiltered ++ stopped

/-- The line of a stage. -/
def stageLine (index : Nat) (s : Stage) : String :=
  "  " ++ toString index ++ ": " ++ s.name ++ " [" ++
    (if s.isTokenizer then "tokenizer" else "filter") ++ "]" ++
    (if s.hasMorph then " (morphological)" else "")

/-- The lines of stages from an index on. -/
def stageLines (index : Nat) : List Stage → List String
  | [] => []
  | s :: rest => stageLine index s :: stageLines (index + 1) rest

/-- A text filled up with blanks on the right. -/
def padRight (width : Nat) (s : String) : String :=
  s ++ String.ofList (List.replicate (width - s.length) ' ')

/-- A text filled up with blanks on the left. -/
def padLeft (width : Nat) (s : String) : String :=
  String.ofList (List.replicate (width - s.length) ' ') ++ s

/-- A row of the table of languages. -/
def languageRow (code name words stemmer : String) : String :=
  padRight 6 code ++ padRight 12 name ++ padLeft 12 words ++ "  " ++ stemmer

/-- The number of stop words of a language. -/
def stopWordCount (l : Language) : Nat :=
  match l.stopWords? with
  | some words => words.size
  | none => 0

/-- The lines of a report for people. -/
def Report.lines (verbosity : Nat) : Report → List String
  | tokens pipeline ts =>
    (if 1 < verbosity then
      ["Analyzer: " ++ pipeline, "Tokens: " ++ toString ts.length, ""]
    else []) ++ ts.map tokenLine
  | stages p => ("Analyzer: " ++ p.name) :: stageLines 0 p.stages
  | languages =>
    languageRow "code" "name" "stop words" "stemmer" ::
      Language.all.map fun l => languageRow l.code l.name (toString (stopWordCount l)) "yes"

/-- A stage as JSON. -/
def stageJson (s : Stage) : Json :=
  .object
    [("name", .string s.name),
     ("kind", .string (if s.isTokenizer then "tokenizer" else "filter")),
     ("morphological", .bool s.hasMorph)]

/-- A language as JSON. -/
def languageJson (l : Language) : Json :=
  .object
    [("code", .string l.code),
     ("name", .string l.name),
     ("stop_words", .count (stopWordCount l)),
     ("stemmer", .bool true)]

/-- A report as JSON. -/
def Report.toJson : Report → Json
  | tokens pipeline ts =>
    .object [("analyzer", .string pipeline), ("tokens", .array (ts.map Token.toJson))]
  | stages p =>
    .object [("analyzer", .string p.name), ("stages", .array (p.stages.map stageJson))]
  | languages => .array (Language.all.map languageJson)

/-- Lines, each with its end. -/
def unlines (lines : List String) : String := String.join (lines.map fun l => l ++ "\n")

/-- What is printed of a report. -/
def Report.render (a : Arguments) (r : Report) : String :=
  match a.format with
  | .human => unlines (r.lines a.verbosity)
  | .json => (if a.pretty then r.toJson.pretty else r.toJson.compact) ++ "\n"

end TextAnalysis.CommandLine
