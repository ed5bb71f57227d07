import TextAnalysis.Tokenizer

/-!
# Stages

A stage of a pipeline is a tokenizer or a filter.
-/

set_option autoImplicit false

namespace TextAnalysis

/-- A stage. -/
inductive Stage where
  | tokenizer (t : Tokenizer)
  | filter (f : Filter)

namespace Stage

/-- The name of the kind of stage. -/
def name : Stage → String
  | tokenizer t => t.name
  | filter f => f.name

/-- Is it a tokenizer? -/
def isTokenizer : Stage → Bool
  | tokenizer _ => true
  | filter _ => false

/-- Does the stage itself change word forms? -/
def isMorph : Stage → Bool
  | tokenizer _ => false
  | filter f => f.isMorph

/-- Does the stage, or a filter that it may dispatch to, change word forms? -/
def hasMorph : Stage → Bool
  | tokenizer _ => false
  | filter f => f.hasMorph

/-- The identities of the caches that the stage may use. -/
def caches : Stage → List Nat
  | tokenizer _ => []
  | filter f => f.caches

/-- Are the stages of one kind and with the same settings? -/
def same : Stage → Stage → Bool
  | tokenizer t, tokenizer u => t == u
  | filter f, filter g => f.same g
  | _, _ => false

/-- The tokenizer of a stage. -/
def asTokenizer? : Stage → Option Tokenizer
  | tokenizer t => some t
  | filter _ => none

/-- The filter of a stage. -/
def asFilter? : Stage → Option Filter
  | tokenizer _ => none
  | filter f => some f

end Stage

end TextAnalysis
