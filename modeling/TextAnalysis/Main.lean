import TextAnalysis.CommandLine.Run

/-!
# The program

Reads the words of its command line, the configuration file that they name and, where no text is
given, its input; prints what the command gives.
-/

set_option autoImplicit false

open TextAnalysis CommandLine

/-- A short account of the command line. -/
def usageText : String :=
  "Usage: [-v] [-q] [-f human|json] [--pretty] <analyze|stages|languages>\n\n" ++
  "  analyze [TEXT]   print the tokens of a text, or of the input\n" ++
  "  stages           print the stages of an analyzer\n" ++
  "  languages        print the languages\n\n" ++
  "analyze and stages take -a PRESET, -l LANGUAGE and -c CONFIG_FILE; analyze also takes\n" ++
  "-m MODE, --positions, --chars, --keep-original, --keep-stopwords, --no-morph and\n" ++
  "--no-tokenize.\n"

/-- The path of the configuration file that a command names. -/
def configPath? (a : Arguments) : Option String :=
  match a.command with
  | .analyze r => r.selection.config
  | .stages s => s.config
  | .languages => none

/-- Why a file could not be read. -/
def faultOf : IO.Error → FileFault
  | .noFileOrDirectory .. => .missing
  | .permissionDenied .. => .denied
  | .inappropriateType .. => .directory
  | e => .other (toString e)

/-- The text of a file, or why it cannot be read. -/
def readFile (path : String) : IO (Except FileFault String) := do
  match ← (IO.FS.readBinFile path).toBaseIO with
  | .error e => return .error (faultOf e)
  | .ok bytes =>
    match Text.decode bytes.toList with
    | .ok text => return .ok text
    | .error _ => return .error .notText

/-- Carries out the command line. -/
def main (words : List String) : IO UInt32 := do
  match Arguments.read words with
  | .error .help => do
    IO.print usageText
    return 0
  | .error .usage => do
    IO.eprint usageText
    return 2
  | .ok a => do
    let config ←
      match configPath? a with
      | some path => readFile path
      | none => pure (.error .missing)
    let input ← if a.readsInput then (← IO.getStdin).readBinToEnd else pure .empty
    let outcome := a.outcome { file := fun _ => config, input := input.toList }
    IO.eprint outcome.errors
    IO.print outcome.output
    return UInt32.ofNat outcome.code
