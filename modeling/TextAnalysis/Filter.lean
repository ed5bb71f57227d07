import TextAnalysis.CharMap
import TextAnalysis.Filter.Stem
import TextAnalysis.Filter.Stop

/-!
# Filters

The filters of a pipeline as data. A dispatching filter holds one filter for each of some modes and
one for all other modes; the modes are kept in the order of their names, each once.
-/

set_option autoImplicit false

namespace TextAnalysis

/-- Where a reporting filter sends its lines: to the log under a target, or to a sink. -/
structure Reporter where
  target : String := "kopis::analysis"
  sink : Option String := none
  deriving DecidableEq, Repr

mutual

/-- A filter. -/
inductive Filter where
  /-- Leaves every token as it is. -/
  | pass
  /-- Turns texts into lower case. -/
  | lowercase
  /-- Takes white space off both ends of texts. -/
  | strip
  /-- Replaces texts character by character. -/
  | charset (m : CharMap)
  /-- Drops or marks stop words. -/
  | stop (f : StopFilter)
  /-- Replaces words by their stems. -/
  | stem (f : StemFilter)
  /-- Reports every token. -/
  | report (r : Reporter)
  /-- Does what the filter for the mode of the tokens does. -/
  | dispatch (d : Dispatch)

/-- The filters of a dispatching filter. -/
inductive Dispatch where
  | otherwise (f : Filter)
  | mode (m : String) (f : Filter) (rest : Dispatch)

end

namespace Dispatch

/-- The filter for a mode. -/
def select (mode : String) : Dispatch → Filter
  | otherwise f => f
  | .mode m f rest => if m = mode then f else select mode rest

/-- The filter for the modes that have none of their own. -/
def fallback : Dispatch → Filter
  | otherwise f => f
  | mode _ _ rest => fallback rest

/-- Sets the filter for a mode. -/
def insert (mode : String) (f : Filter) : Dispatch → Dispatch
  | otherwise g => .mode mode f (.otherwise g)
  | .mode m g rest =>
    if m = mode then .mode mode f rest
    else if mode < m then .mode mode f (.mode m g rest)
    else .mode m g (insert mode f rest)

/-- Sets the filter for the modes that have none of their own. -/
def withFallback (f : Filter) : Dispatch → Dispatch
  | otherwise _ => .otherwise f
  | mode m g rest => .mode m g (withFallback f rest)

/-- The modes that have a filter of their own, with it. -/
def entries : Dispatch → List (String × Filter)
  | otherwise _ => []
  | mode m f rest => (m, f) :: entries rest

end Dispatch

namespace Filter

/-- The name of the kind of filter. -/
def name : Filter → String
  | pass => "pass"
  | lowercase => "lowercase"
  | strip => "strip"
  | charset _ => "charset"
  | stop _ => "stop"
  | stem _ => "stem"
  | report _ => "logging"
  | dispatch _ => "multi"

/-- Does the filter itself change word forms? -/
def isMorph : Filter → Bool
  | stem _ => true
  | _ => false

end Filter

mutual

/-- Is the filter, or one that it may dispatch to, a filter that changes word forms? -/
def Filter.hasMorph : Filter → Bool
  | .dispatch d => d.hasMorph
  | .stem _ => true
  | _ => false

/-- Does one of the filters change word forms? -/
def Dispatch.hasMorph : Dispatch → Bool
  | .otherwise f => f.hasMorph
  | .mode _ f rest => f.hasMorph || rest.hasMorph

end

mutual

/-- The identities of the caches that the filter may use. -/
def Filter.caches : Filter → List Nat
  | .dispatch d => d.caches
  | .stem f => [f.cache]
  | _ => []

/-- The identities of the caches that the filters may use. -/
def Dispatch.caches : Dispatch → List Nat
  | .otherwise f => f.caches
  | .mode _ f rest => f.caches ++ rest.caches

end

mutual

/-- Are the filters of one kind and with the same settings? -/
def Filter.same : Filter → Filter → Bool
  | .pass, .pass => true
  | .lowercase, .lowercase => true
  | .strip, .strip => true
  | .charset m, .charset n => m == n
  | .stop f, .stop g => f == g
  | .stem f, .stem g => f.same g
  | .report r, .report s => r == s
  | .dispatch d, .dispatch e => d.same e
  | _, _ => false

/-- Do they have the same filters for the same modes? -/
def Dispatch.same : Dispatch → Dispatch → Bool
  | .otherwise f, .otherwise g => f.same g
  | .mode m f d, .mode n g e => m == n && f.same g && d.same e
  | _, _ => false

end

end TextAnalysis
