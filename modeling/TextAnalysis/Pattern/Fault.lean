/-!
# Why a pattern cannot be read
-/

set_option autoImplicit false

namespace TextAnalysis.Pattern

/-- The reasons for which a text is not a pattern. -/
inductive Fault where
  | unclosedGroup
  | unopenedGroup
  | nothingToRepeat
  | badCount
  | badGroupName
  | badFlags
  | badEscape
  | badClass
  | unknownProperty
  | lookAround
  | backReference
  | needsUnicode
  deriving DecidableEq, Repr

/-- The reason in words. -/
def Fault.message : Fault → String
  | unclosedGroup => "unclosed group"
  | unopenedGroup => "unopened group"
  | nothingToRepeat => "repetition operator missing expression"
  | badCount => "malformed repetition count"
  | badGroupName => "malformed or repeated group name"
  | badFlags => "malformed flags"
  | badEscape => "unrecognized escape sequence"
  | badClass => "malformed character class"
  | unknownProperty => "Unicode property not found"
  | lookAround => "look-around, including look-ahead and look-behind, is not supported"
  | backReference => "backreferences are not supported"
  | needsUnicode => "Unicode not allowed here"

end TextAnalysis.Pattern
