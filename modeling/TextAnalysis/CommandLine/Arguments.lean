/-!
# Arguments of the command line

The commands, their options, and how the words of a command line are read. Options that every
command has may stand before or behind the name of the command; where such an option stands in both
places, the one behind counts. An option stands at most once in each place, save for the one that
asks for more detail, whose occurrences are counted. Two dashes end the options.
-/

set_option autoImplicit false

namespace TextAnalysis.CommandLine

/-- How results are written. -/
inductive Format where
  | human
  | json
  deriving DecidableEq, Repr

/-- How the analyzer is chosen. -/
structure Selection where
  /-- The name of a preset. -/
  analyzer : String := "standard"
  /-- The language of the preset. -/
  language : Option String := none
  /-- A configuration file, in place of both. -/
  config : Option String := none
  deriving DecidableEq, Repr

/-- What is asked of an analysis. -/
structure AnalyzeRequest where
  /-- The text; what is read from the input where it is missing. -/
  text : Option String := none
  selection : Selection := {}
  mode : Option String := none
  positions : Bool := false
  offsets : Bool := false
  keepUnfiltered : Bool := false
  keepStopwords : Bool := false
  keepForms : Bool := false
  whole : Bool := false
  deriving DecidableEq, Repr

/-- A command. -/
inductive Command where
  /-- Print the tokens of a text. -/
  | analyze (r : AnalyzeRequest)
  /-- Print the stages of an analyzer. -/
  | stages (s : Selection)
  /-- Print the languages. -/
  | languages
  deriving DecidableEq, Repr

/-- A command line. -/
structure Arguments where
  /-- How often more detail was asked for. -/
  verbose : Nat := 0
  quiet : Bool := false
  format : Format := .human
  pretty : Bool := false
  command : Command
  deriving DecidableEq, Repr

/-- How much is reported: nothing but errors where quiet is asked for, and otherwise as much as was
asked for, but one at least. -/
def Arguments.verbosity (a : Arguments) : Nat :=
  if a.quiet then 0 else if a.verbose = 0 then 1 else a.verbose

/-- Why a command line is not carried out. -/
inductive UsageFault where
  /-- Help or the version was asked for. -/
  | help
  /-- The words are no command line. -/
  | usage
  deriving DecidableEq, Repr

/-- The options. -/
inductive Key where
  | verbose
  | quiet
  | format
  | pretty
  | help
  | version
  | analyzer
  | language
  | config
  | mode
  | positions
  | offsets
  | keepUnfiltered
  | keepStopwords
  | keepForms
  | whole
  deriving DecidableEq, Repr

/-- Where an option stands: before the name of the command, or behind the name of one. -/
inductive Scope where
  | top
  | analyze
  | stages
  | languages
  deriving DecidableEq, Repr

/-- An option with the letter and the word by which it is given. -/
structure Spelling where
  key : Key
  letter : Option Char
  word : String
  deriving DecidableEq, Repr

/-- The options that every command has. -/
def commonSpellings : List Spelling :=
  [⟨.verbose, some 'v', "verbose"⟩, ⟨.quiet, some 'q', "quiet"⟩, ⟨.format, some 'f', "format"⟩,
   ⟨.pretty, none, "pretty"⟩, ⟨.help, some 'h', "help"⟩]

/-- The options that choose an analyzer. -/
def selectionSpellings : List Spelling :=
  [⟨.analyzer, some 'a', "analyzer"⟩, ⟨.language, some 'l', "lang"⟩, ⟨.config, some 'c', "config"⟩]

/-- The options that may stand in a place. -/
def Scope.spellings : Scope → List Spelling
  | top => ⟨.version, some 'V', "version"⟩ :: commonSpellings
  | analyze =>
    commonSpellings ++ selectionSpellings ++
      [⟨.mode, some 'm', "mode"⟩, ⟨.positions, none, "positions"⟩, ⟨.offsets, none, "chars"⟩,
       ⟨.keepUnfiltered, none, "keep-original"⟩, ⟨.keepStopwords, none, "keep-stopwords"⟩,
       ⟨.keepForms, none, "no-morph"⟩, ⟨.whole, none, "no-tokenize"⟩]
  | stages => commonSpellings ++ selectionSpellings
  | languages => commonSpellings

/-- Does the option take a value? -/
def Key.takesValue : Key → Bool
  | format | analyzer | language | config | mode => true
  | _ => false

/-- Is the text a value of the option? -/
def Key.accepts (k : Key) (value : String) : Bool :=
  match k with
  | format => value == "human" || value == "json"
  | config => value != ""
  | _ => true

/-- What was given in one place. -/
structure Given where
  verbose : Nat := 0
  flags : List Key := []
  values : List (Key × String) := []
  text : Option String := none

namespace Given

/-- Gives an option without a value. -/
def addFlag (g : Given) (k : Key) : Except UsageFault Given :=
  match k with
  | .help | .version => .error .help
  | .verbose => .ok { g with verbose := min (g.verbose + 1) 255 }
  | k => if g.flags.contains k then .error .usage else .ok { g with flags := k :: g.flags }

/-- Gives an option with a value. -/
def addValue (g : Given) (k : Key) (value : String) : Except UsageFault Given :=
  if (g.values.lookup k).isSome || !k.accepts value then .error .usage
  else .ok { g with values := (k, value) :: g.values }

/-- Was the option given? -/
def has (g : Given) (k : Key) : Bool := g.flags.contains k

/-- The value of an option. -/
def value? (g : Given) (k : Key) : Option String := g.values.lookup k

end Given

/-- Reads the letters of options behind a single dash. The last may wait for its value. -/
def readLetters (scope : Scope) (g : Given) : List Char → Except UsageFault (Given × Option Key)
  | [] => .ok (g, none)
  | c :: rest =>
    match scope.spellings.find? fun s => s.letter == some c with
    | none => .error .usage
    | some s =>
      if s.key.takesValue then
        match rest with
        | [] => .ok (g, some s.key)
        | '=' :: value => (g.addValue s.key (String.ofList value)).map fun g => (g, none)
        | value => (g.addValue s.key (String.ofList value)).map fun g => (g, none)
      else do
        let g ← g.addFlag s.key
        readLetters scope g rest

/-- Reads the word of an option behind two dashes. It may wait for its value. -/
def readWord (scope : Scope) (g : Given) (word : List Char) :
    Except UsageFault (Given × Option Key) :=
  let name := String.ofList (word.takeWhile (· ≠ '='))
  match scope.spellings.find? fun s => s.word == name with
  | none => .error .usage
  | some s =>
    match word.dropWhile (· ≠ '='), s.key.takesValue with
    | [], true => .ok (g, some s.key)
    | [], false => (g.addFlag s.key).map fun g => (g, none)
    | _ :: value, true => (g.addValue s.key (String.ofList value)).map fun g => (g, none)
    | _ :: _, false => .error .usage

/-- Reads the text of the command, which only an analysis has, and only once. -/
def readText (scope : Scope) (g : Given) (text : String) : Except UsageFault Given :=
  if scope = .analyze && g.text.isNone then .ok { g with text := some text } else .error .usage

/-- The command with a name, where help is one. -/
def scopeOf? (word : String) : Option Scope :=
  if word = "analyze" then some .analyze
  else if word = "stages" then some .stages
  else if word = "languages" then some .languages
  else none

/-- Is the word an option? A single dash is none. -/
def isOption (word : String) : Bool :=
  match word.toList with
  | '-' :: _ :: _ => true
  | _ => false

/-- What asking for help about a command by name comes to. -/
def helpAbout : List String → UsageFault
  | [] => .help
  | word :: rest =>
    if (scopeOf? word).isSome then (if rest.isEmpty then .help else .usage)
    else if word = "help" && rest.isEmpty then .help
    else .usage

/-- Reads words in one place. `waiting` is an option that waits for its value, and `ended` tells
that the options have ended. Before the command, its name ends the reading, and the words behind it
remain. -/
def readWords (scope : Scope) (g : Given) (waiting : Option Key) (ended : Bool) :
    List String → Except UsageFault (Given × Option (Scope × List String))
  | [] => if waiting.isSome then .error .usage else .ok (g, none)
  | word :: rest =>
    if ended then do
      let g ← readText scope g word
      readWords scope g none true rest
    else
      match waiting with
      | some k =>
        if isOption word then .error .usage
        else do
          let g ← g.addValue k word
          readWords scope g none false rest
      | none =>
        if word = "--" then readWords scope g none true rest
        else if isOption word then do
          let (g, waiting) ←
            match word.toList with
            | '-' :: '-' :: name => readWord scope g name
            | letters => readLetters scope g (letters.drop 1)
          readWords scope g waiting false rest
        else if scope = .top then
          match scopeOf? word with
          | some inner => .ok (g, some (inner, rest))
          | none => .error (if word = "help" then helpAbout rest else .usage)
        else do
          let g ← readText scope g word
          readWords scope g none false rest

/-- The selection that was given. -/
def Given.selection (g : Given) : Selection :=
  { analyzer := (g.value? .analyzer).getD "standard"
    language := g.value? .language
    config := g.value? .config }

/-- The command that was given. -/
def Given.command (g : Given) : Scope → Option Command
  | .top => none
  | .analyze =>
    some (.analyze
      { text := g.text
        selection := g.selection
        mode := g.value? .mode
        positions := g.has .positions
        offsets := g.has .offsets
        keepUnfiltered := g.has .keepUnfiltered
        keepStopwords := g.has .keepStopwords
        keepForms := g.has .keepForms
        whole := g.has .whole })
  | .stages => some (.stages g.selection)
  | .languages => some .languages

/-- Reads a command line. -/
def Arguments.read (words : List String) : Except UsageFault Arguments := do
  let (outer, found) ← readWords .top {} none false words
  match found with
  | none => .error .usage
  | some (scope, words) =>
    let (inner, _) ← readWords scope {} none false words
    match inner.command scope with
    | none => .error .usage
    | some command =>
      .ok
        { verbose := if inner.verbose = 0 then outer.verbose else inner.verbose
          quiet := outer.has .quiet || inner.has .quiet
          format :=
            if (inner.value? .format).or (outer.value? .format) = some "json" then .json
            else .human
          pretty := outer.has .pretty || inner.has .pretty
          command := command }

end TextAnalysis.CommandLine
