import TextAnalysis.Pipeline

/-!
# Descriptions of stages and pipelines

The descriptions of stages and pipelines for diagnosis, with all their settings.
-/

set_option autoImplicit false

namespace TextAnalysis

open Text.Described (record wrapped optional truth count)
open Text.Quoted (quote)

/-- The description of a pattern. -/
def Pattern.describe (p : Pattern) : String := wrapped "Regex" (quote p.source)

/-- The description of a tokenizer. -/
def Tokenizer.describe : Tokenizer → String
  | regex p gaps =>
    record "RegexTokenizer" [("pattern", p.describe), ("gaps", truth gaps)]
  | path p => record "PathTokenizer" [("segment", p.describe)]
  | charset m => record "CharsetTokenizer" [("char_map", m.describe)]
  | whole => "IdTokenizer"

/-- The description of a set of words. -/
def WordSet.describe (s : WordSet) : String := Text.Described.set (s.toList.map quote)

/-- The description of a stop filter. -/
def StopFilter.describe (f : StopFilter) : String :=
  record "StopFilter"
    [("stop_words", WordSet.describe f.words),
     ("min_size", count f.minSize),
     ("max_size", optional (f.maxSize.map count)),
     ("renumber", truth f.renumber)]

/-- The description of a stemmer. -/
def Stemmer.describe : Stemmer → String
  | ofLanguage l => record "SnowballStemmer" [("language", l.title)]
  | custom name _ => record "FnStemmer" [("name", quote name)]

/-- The description of a stem filter. -/
def StemFilter.describe (f : StemFilter) : String :=
  record "StemFilter"
    [("stemmer", f.stemmer.describe),
     ("ignore", WordSet.describe f.ignored),
     ("cache_size", optional (f.limit.map count))]

/-- The description of a reporting filter. -/
def Reporter.describe (r : Reporter) : String :=
  record "LoggingFilter" [("target", quote r.target), ("sink", truth r.sink.isSome)]

mutual

/-- The description of a filter. -/
def Filter.describe : Filter → String
  | .pass => "PassFilter"
  | .lowercase => "LowercaseFilter"
  | .strip => "StripFilter"
  | .charset m => record "CharsetFilter" [("char_map", m.describe)]
  | .stop f => f.describe
  | .stem f => f.describe
  | .report r => r.describe
  | .dispatch d =>
    record "MultiFilter"
      [("filters", Text.Described.map d.describeModes), ("default", d.describeFallback)]

/-- The descriptions of the filters for modes. -/
def Dispatch.describeModes : Dispatch → List (String × String)
  | .otherwise _ => []
  | .mode m f rest => (quote m, f.describe) :: rest.describeModes

/-- The description of the filter for the other modes. -/
def Dispatch.describeFallback : Dispatch → String
  | .otherwise f => f.describe
  | .mode _ _ rest => rest.describeFallback

end

/-- The description of a stage. -/
def Stage.describe : Stage → String
  | tokenizer t => t.describe
  | filter f => f.describe

/-- The description of a pipeline. -/
def Pipeline.describe (p : Pipeline) : String :=
  record "PipelineAnalyzer"
    [("name", quote p.name), ("stages", Text.Described.list (p.stages.map Stage.describe))]

end TextAnalysis
