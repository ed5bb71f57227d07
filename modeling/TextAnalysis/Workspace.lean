import TextAnalysis.Failure
import TextAnalysis.Filter.Stem
import TextAnalysis.Journal

/-!
# The workspace

What pipelines share while they are built and run: the stemming functions of the user, the caches
of stem filters, and the journal. Every operation that reads or changes one of them takes the
workspace and gives it back.

Main statement: `stem_fst`, that a cache does not change a stem as long as it holds stems only.
-/

set_option autoImplicit false

namespace TextAnalysis

/-- The stems that a stem filter has stored, by their words. -/
abbrev StemCache := Std.ExtTreeMap String String

/-- The state that pipelines share. -/
structure Workspace where
  /-- The stemming functions of the user; a stemmer's identity is its place in the list. -/
  stemmers : List (String → String) := []
  /-- The caches that are not empty, by their identity. -/
  caches : Std.ExtTreeMap Nat StemCache := ∅
  /-- No cache has this identity or a greater one. -/
  nextCache : Nat := 0
  /-- What has been reported, last report first. -/
  journal : List Event := []

namespace Workspace

/-- Makes one more report. -/
def report (w : Workspace) (e : Event) : Workspace := { w with journal := e :: w.journal }

/-- Everything reported, in order. -/
def events (w : Workspace) : List Event := w.journal.reverse

/-- A debugging message of the library. -/
def debug (w : Workspace) (text : String) : Workspace := w.report (.message .debug none text)

/-- The cache with an identity. -/
def cache (w : Workspace) (identity : Nat) : StemCache := (w.caches[identity]?).getD ∅

/-- Puts a cache in place of the one with that identity. -/
def setCache (w : Workspace) (identity : Nat) (c : StemCache) : Workspace :=
  { w with caches := w.caches.insert identity c }

/-- Empties the cache with an identity. -/
def clean (w : Workspace) (identity : Nat) : Workspace := w.setCache identity ∅

/-- Empties the listed caches. -/
def cleanAll (w : Workspace) (identities : List Nat) : Workspace := identities.foldl clean w

/-- The number of stems in the cache of a filter. -/
def cached (w : Workspace) (f : StemFilter) : Nat := (w.cache f.cache).size

/-- Adds a stemming function of the user. -/
def addStemmer (w : Workspace) (name : String) (run : String → String) : Stemmer × Workspace :=
  (.custom name w.stemmers.length, { w with stemmers := w.stemmers ++ [run] })

/-- A filter with a stemmer and with a cache of its own. -/
def stemFilter (w : Workspace) (stemmer : Stemmer) : StemFilter × Workspace :=
  ({ stemmer := stemmer, cache := w.nextCache }, { w with nextCache := w.nextCache + 1 })

/-- A filter with the settings of another and a cache of its own. -/
def cloneStem (w : Workspace) (f : StemFilter) : StemFilter × Workspace :=
  ({ f with cache := w.nextCache }, { w with nextCache := w.nextCache + 1 })

/-- The stem of a word, computed. A function that the workspace does not have leaves words alone. -/
def computeStem (w : Workspace) (s : Stemmer) (word : String) : String :=
  match s with
  | .ofLanguage l => l.stem word
  | .custom _ identity =>
    match w.stemmers[identity]? with
    | some run => run word
    | none => word

/-- A cache with one more stem, emptied first where it is full. -/
def store (c : StemCache) (limit : Nat) (word stem : String) : StemCache :=
  (if limit ≤ c.size then ∅ else c).insert word stem

/-- The stem of a word, from the cache or computed and stored. -/
def stem (w : Workspace) (f : StemFilter) (word : String) : String × Workspace :=
  match f.limit with
  | none => (w.computeStem f.stemmer word, w)
  | some limit =>
    match (w.cache f.cache)[word]? with
    | some stem => (stem, w)
    | none =>
      let stem := w.computeStem f.stemmer word
      (stem, w.setCache f.cache (store (w.cache f.cache) limit word stem))

/-- A cache that holds stems only does not change the stem of a word. -/
theorem stem_fst (w : Workspace) (f : StemFilter) (word : String)
    (h : ∀ stem, (w.cache f.cache)[word]? = some stem → stem = w.computeStem f.stemmer word) :
    (w.stem f word).1 = w.computeStem f.stemmer word := by
  unfold stem
  split
  · rfl
  · split
    · next stem found => exact h stem found
    · rfl

end Workspace

/-- Building a stage or pipeline: it may fail, it may report, and it may need a cache. -/
abbrev Build := ExceptT Failure (StateM Workspace)

namespace Build

/-- A result that may be a failure, as part of building. -/
def ofExcept {α : Type} : Except Failure α → Build α
  | .ok a => pure a
  | .error failure => throw failure

/-- Reports a debugging message. -/
def debug (text : String) : Build Unit := modify fun w => w.debug text

/-- Reports a message of general interest. -/
def info (text : String) : Build Unit := modify fun w => w.report (.message .info none text)

/-- A new filter with a stemmer. -/
def stemFilter (s : Stemmer) : Build StemFilter := do
  let (f, w) := (← get).stemFilter s
  set w
  return f

end Build

end TextAnalysis
