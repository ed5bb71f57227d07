/-!
# The journal

What an analysis reports while it runs, in the order in which it happens: lines that reporting
filters send to a sink, and log messages.
-/

set_option autoImplicit false

namespace TextAnalysis

/-- How important a log message is. -/
inductive Level where
  | info
  | debug
  deriving DecidableEq, Repr

/-- The name of a level. -/
def Level.name : Level → String
  | info => "INFO"
  | debug => "DEBUG"

/-- One report. -/
inductive Event where
  /-- A line sent to a sink. -/
  | line (sink : String) (text : String)
  /-- A log message of a reporting filter, under its target, or of the library itself. -/
  | message (level : Level) (target : Option String) (text : String)
  deriving DecidableEq, Repr

end TextAnalysis
