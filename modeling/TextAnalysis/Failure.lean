import TextAnalysis.Pattern.Fault
import TextAnalysis.Text.Quoted
import TextAnalysis.Text.Utf8

/-!
# Failures

Why a stage cannot be configured, why stages cannot be composed, why an input or a configuration
cannot be read, each as a cause with the data that its report names. The wording is in
`Failure.message`.
-/

set_option autoImplicit false

namespace TextAnalysis

open Text.Quoted (quote)

/-- Why stages do not make a pipeline. -/
inductive CompositionFault where
  /-- There is no stage at all. -/
  | noStage
  /-- The first stage, named first, is no tokenizer. -/
  | startsWithFilter (first : String) (names : List String)
  /-- A tokenizer follows another stage. -/
  | lateTokenizer (names : List String)
  /-- Stages that should analyse a text do not start with a tokenizer. -/
  | noTokenizer
  deriving DecidableEq, Repr

/-- The names of stages in brackets. -/
def bracketed (names : List String) : String := "[" ++ String.intercalate ", " names ++ "]"

/-- The fault in words. -/
def CompositionFault.message : CompositionFault → String
  | noStage => "an analyzer needs a tokenizer as its first stage"
  | startsWithFilter first names =>
    "the first stage of an analyzer must be a tokenizer, found " ++ quote first ++ ": " ++
      bracketed names
  | lateTokenizer names =>
    "only one tokenizer allowed at the start of the analyzer: " ++ bracketed names
  | noTokenizer => "analyzer has no tokenizer"

/-- Why a text is no hexadecimal numeral of 32 bits. -/
inductive NumeralFault where
  | empty
  | badDigit
  | tooLarge
  deriving DecidableEq, Repr

/-- The fault in words. -/
def NumeralFault.message : NumeralFault → String
  | empty => "cannot parse integer from empty string"
  | badDigit => "invalid digit found in string"
  | tooLarge => "number too large to fit in target type"

/-- Why an entry of a character table is refused. -/
inductive TableFault where
  | badCodePoint (item entry : String) (cause : NumeralFault)
  | noCharacter (item entry : String)
  | reversedRange (entry : String)
  | unequalRanges (entry : String)
  | invalidCharacter (code : Nat) (entry : String)
  deriving DecidableEq, Repr

/-- The fault in words. -/
def TableFault.message : TableFault → String
  | badCodePoint item entry cause =>
    "invalid code point " ++ quote item ++ " in " ++ quote entry ++ ": " ++ cause.message
  | noCharacter item entry =>
    "expected a single character or U+XXXX, found " ++ quote item ++ " in " ++ quote entry
  | reversedRange entry => "charset table range is reversed in " ++ quote entry
  | unequalRanges entry => "charset table range lengths differ in " ++ quote entry
  | invalidCharacter code entry =>
    "U+" ++ String.ofList ((Nat.toDigits 16 code).map Char.toUpper) ++
      " is not a valid character in " ++ quote entry

/-- Why a stage cannot be configured. -/
inductive StageFault where
  | pattern (cause : Pattern.Fault)
  | segment (cause : Pattern.Fault)
  | table (cause : TableFault)
  deriving DecidableEq, Repr

/-- The fault in words. -/
def StageFault.message : StageFault → String
  | pattern cause => "Invalid regex pattern: " ++ cause.message
  | segment cause => "Invalid path segment pattern: " ++ cause.message
  | table cause => cause.message

/-- Why a configuration names no pipeline. -/
inductive ConfigFault where
  | unknownLanguage (name : String)
  | unknownAnalyzer (name : String) (known : List String)
  | missingLanguage
  deriving DecidableEq, Repr

/-- The fault in words. -/
def ConfigFault.message : ConfigFault → String
  | unknownLanguage name => "unknown language: " ++ quote name
  | unknownAnalyzer name known =>
    "unknown analyzer " ++ quote name ++ ", expected one of " ++ String.intercalate ", " known
  | missingLanguage => "the language analyzer needs a language code"

/-- Why a file cannot be read. -/
inductive FileFault where
  | missing
  | directory
  | denied
  | notText
  | other (message : String)
  deriving DecidableEq, Repr

/-- The fault in words. -/
def FileFault.message : FileFault → String
  | missing => "No such file or directory (os error 2)"
  | directory => "Is a directory (os error 21)"
  | denied => "Permission denied (os error 13)"
  | notText => "stream did not contain valid UTF-8"
  | other message => message

/-- How a JSON text fails to give a value of the kind asked for. -/
inductive JsonFault where
  /-- The text is not JSON. -/
  | malformed
  /-- The text is JSON, but not of the shape asked for. -/
  | mismatch
  /-- The text ends too early. -/
  | truncated
  deriving DecidableEq, Repr

/-- The fault in words. -/
def JsonFault.message : JsonFault → String
  | malformed => "malformed text"
  | mismatch => "unexpected shape"
  | truncated => "unexpected end of text"

/-- Why an operation fails. -/
inductive Failure where
  | encoding (cause : Text.Utf8Fault)
  | composition (cause : CompositionFault)
  | stage (cause : StageFault)
  | config (cause : ConfigFault)
  | file (cause : FileFault)
  | json (cause : JsonFault)
  /-- A configuration file that cannot be loaded. -/
  | loading (path : String) (cause : Failure)
  deriving DecidableEq, Repr

namespace Failure

/-- The causes below a failure, outermost first, in words. -/
def causes : Failure → List String
  | file cause => [cause.message]
  | json cause => [cause.message]
  | _ => []

/-- The failure in words. A failure with a context is followed by its causes. -/
def message : Failure → String
  | encoding cause => "Encoding error: input is not valid UTF-8: " ++ cause.message
  | composition cause => "Composition error: " ++ cause.message
  | stage cause => "Analysis error: " ++ cause.message
  | config cause => "Configuration error: " ++ cause.message
  | file cause => "I/O error: " ++ cause.message
  | json cause => "JSON error: " ++ cause.message
  | loading path cause =>
    String.intercalate ": "
      (("failed to load config file " ++ path) :: message cause :: causes cause)

/-- Is it a failure to read bytes as text? -/
def isEncoding : Failure → Bool
  | encoding _ => true
  | _ => false

/-- Is it a failure to compose stages? -/
def isComposition : Failure → Bool
  | composition _ => true
  | _ => false

end Failure

end TextAnalysis
