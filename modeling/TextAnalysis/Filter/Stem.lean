import TextAnalysis.Stemming

/-!
# Stem filters

A stem filter replaces words by their stems, except stopped tokens and the words it is told to
leave alone. Stems are looked up in a cache before they are computed; a full cache is emptied before
the next stem is stored. The cache itself is kept in the workspace, under the identity that the
filter holds, so that filters and pipelines can share it.
-/

set_option autoImplicit false

namespace TextAnalysis

/-- What computes stems: the rules of a language, or a function of the user, known by its name and
by the identity under which the workspace keeps it. -/
inductive Stemmer where
  | ofLanguage (l : Language)
  | custom (name : String) (identity : Nat)
  deriving DecidableEq

namespace Stemmer

/-- The name of the stemmer. -/
def name : Stemmer → String
  | ofLanguage _ => "snowball"
  | custom name _ => name

/-- The language whose words it stems. -/
def language? : Stemmer → Option Language
  | ofLanguage l => some l
  | custom _ _ => none

/-- Are they one stemmer? Those of a language are, and functions of the user with one identity. -/
def same : Stemmer → Stemmer → Bool
  | ofLanguage l, ofLanguage m => l == m
  | custom _ i, custom _ j => i == j
  | _, _ => false

end Stemmer

/-- The number of stems that a cache holds unless it is told otherwise. -/
def defaultCacheSize : Nat := 50000

/-- The settings of a stem filter. -/
structure StemFilter where
  /-- What computes the stems. -/
  stemmer : Stemmer
  /-- Words that are left alone. -/
  ignored : WordSet := ∅
  /-- The number of stems that the cache may hold; no stem is cached where it is missing. -/
  limit : Option Nat := some defaultCacheSize
  /-- The identity of the cache. -/
  cache : Nat
  deriving DecidableEq

namespace StemFilter

/-- Leaves the listed words alone. -/
def ignoring (f : StemFilter) (words : List String) : StemFilter :=
  { f with ignored := f.ignored.addWords words }

/-- Sets the number of stems that the cache may hold, where none means no cache. -/
def withLimit (f : StemFilter) (limit : Option Nat) : StemFilter :=
  { f with limit := limit.filter fun n => decide (0 < n) }

/-- Are the settings the same? The caches do not count. -/
def same (f g : StemFilter) : Bool :=
  f.stemmer.same g.stemmer && f.ignored == g.ignored && f.limit == g.limit

end StemFilter

end TextAnalysis
