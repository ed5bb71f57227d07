import TextAnalysis.CommandLine.Report
import TextAnalysis.Json.Settings

/-!
# Carrying out a command line

A command is carried out on the contents of the files that it names and on its input. It gives one
text to print, or it fails and prints nothing.
-/

set_option autoImplicit false

namespace TextAnalysis.CommandLine

/-- What a command may read: files by their paths, and its input. -/
structure Sources where
  file : String → Except FileFault String
  input : List UInt8 := []

/-- Reads the configuration in a file. -/
def Sources.config (sources : Sources) (path : String) : Build Config := do
  Build.debug ("loading configuration from " ++ path)
  match sources.file path with
  | .error fault => throw (.file fault)
  | .ok text => Build.ofExcept (Config.ofText text)

/-- The configuration in a file that a command line names. -/
def loadConfig (sources : Sources) (path : String) : Build Config := do
  try sources.config path
  catch failure => throw (.loading path failure)

/-- The pipeline of a selection, and the options to analyse with unless others are asked for. -/
def load (sources : Sources) (s : Selection) : Build (Pipeline × Options) := do
  let config ←
    match s.config with
    | some path => loadConfig sources path
    | none => do
      let preset ← Build.ofExcept (Preset.ofName s.analyzer s.language)
      pure { preset := preset }
  Build.info ("using " ++ config.preset.name ++ " analyzer")
  return (← config.preset.build, config.options)

/-- The options of an analysis: those given, with what is asked for. -/
def AnalyzeRequest.options (r : AnalyzeRequest) (o : Options) : Options :=
  { o with
    mode := r.mode.getD o.mode
    positions := o.positions || r.positions
    offsets := o.offsets || r.offsets
    keepUnfiltered := o.keepUnfiltered || r.keepUnfiltered
    removeStopped := o.removeStopped && !r.keepStopwords
    keepForms := o.keepForms || r.keepForms
    tokenize := o.tokenize && !r.whole }

/-- The tokens of an input. -/
def tokensOf (p : Pipeline) (o : Options) (input : Input) : Build (List Token) := do
  let s ← Build.ofExcept (p.analyze o input)
  let (tokens, _, w) := s.drain (← get)
  set w
  return tokens

/-- Carries out an analysis. -/
def analyze (sources : Sources) (r : AnalyzeRequest) : Build Report := do
  let (p, options) ← load sources r.selection
  let input : Input ←
    match r.text with
    | some text => pure (.text text)
    | none => do
      Build.debug "reading text from stdin"
      pure (.bytes sources.input)
  let tokens ← tokensOf p (r.options options) input
  Build.debug (p.name ++ " produced " ++ toString tokens.length ++ " tokens")
  return .tokens p.name tokens

/-- Carries out a command. -/
def Command.report (sources : Sources) : Command → Build Report
  | analyze r => CommandLine.analyze sources r
  | stages s => do
    let (p, _) ← load sources s
    return .stages p
  | languages => pure .languages

/-- Carries out a command line: the text to print. -/
def run (sources : Sources) (a : Arguments) : Build String := do
  return (← a.command.report sources).render a

/-- What a run of the program leaves behind. -/
structure Outcome where
  code : Nat
  output : String
  errors : String
  deriving DecidableEq, Repr

/-- Is a log message shown at a verbosity? -/
def isShown (verbosity : Nat) : Level → Bool
  | .info => 2 ≤ verbosity
  | .debug => 3 ≤ verbosity

/-- The log line of an event, where it is shown. -/
def logLine? (verbosity : Nat) : Event → Option String
  | .message level _ text =>
    if isShown verbosity level then some ("[" ++ level.name ++ "] " ++ text) else none
  | .line _ _ => none

/-- Carries out a command line as a program does. -/
def Arguments.outcome (a : Arguments) (sources : Sources) : Outcome :=
  let (result, w) := (run sources a).run {}
  let log := unlines (w.events.filterMap (logLine? a.verbosity))
  match result with
  | .ok text => ⟨0, text, log⟩
  | .error failure => ⟨1, "", log ++ unlines ["Error: " ++ failure.message]⟩

/-- Does a command line read its input? -/
def Arguments.readsInput (a : Arguments) : Bool :=
  match a.command with
  | .analyze r => r.text.isNone
  | _ => false

end TextAnalysis.CommandLine
