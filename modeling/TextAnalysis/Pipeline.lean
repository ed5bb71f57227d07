import TextAnalysis.Stage

/-!
# Pipelines

A pipeline is a tokenizer followed by filters, under a name. That the first stage is a tokenizer and
every later one a filter is in the type, so that an analysis can fail in one way only: its input may
be bytes that are no text. Then nothing has been analysed.
-/

set_option autoImplicit false

namespace TextAnalysis

/-- A tokenizer and the filters behind it. -/
structure Pipeline where
  name : String
  tokenizer : Tokenizer
  filters : List Filter

/-- What is analysed: a text, or bytes that should encode one. -/
inductive Input where
  | text (s : String)
  | bytes (b : List UInt8)
  deriving DecidableEq, Repr

/-- The text of an input. -/
def Input.decode : Input → Except Failure String
  | text s => .ok s
  | bytes b =>
    match Text.decode b with
    | .ok s => .ok s
    | .error fault => .error (.encoding fault)

namespace Pipeline

/-- The pipeline of a tokenizer alone. -/
def ofTokenizer (t : Tokenizer) : Pipeline := ⟨"pipeline_" ++ t.name, t, []⟩

/-- The pipeline with one more filter behind the others. -/
def addFilter (p : Pipeline) (f : Filter) : Pipeline := { p with filters := p.filters ++ [f] }

/-- The pipeline under another name. -/
def withName (p : Pipeline) (name : String) : Pipeline := { p with name := name }

/-- The stages in order. -/
def stages (p : Pipeline) : List Stage := .tokenizer p.tokenizer :: p.filters.map .filter

/-- The number of stages. -/
def size (p : Pipeline) : Nat := p.stages.length

/-- The stage at an index. -/
def stage? (p : Pipeline) (index : Nat) : Option Stage := p.stages[index]?

/-- Does a stage, or a filter that it may dispatch to, change word forms? -/
def hasMorph (p : Pipeline) : Bool := p.stages.any Stage.hasMorph

/-- The identities of the caches that the pipeline may use. -/
def caches (p : Pipeline) : List Nat := p.stages.flatMap Stage.caches

/-- Empties the caches of the pipeline. -/
def clean (p : Pipeline) (w : Workspace) : Workspace := w.cleanAll p.caches

/-- Do the pipelines have the same stages? Their names do not count. -/
def same (p q : Pipeline) : Bool :=
  p.tokenizer == q.tokenizer && p.filters.length == q.filters.length &&
    (p.filters.zip q.filters).all fun pair => pair.1.same pair.2

/-- The filters that run under the given options: all of them, or those that do not change word
forms. -/
def activeFilters (p : Pipeline) (o : Options) : List Filter :=
  p.filters.filter fun f => !(o.keepForms && f.isMorph)

/-- The stream of the tokens of a text. -/
def streamOfText (p : Pipeline) (o : Options) (text : String) : Stream :=
  (p.activeFilters o).foldl (fun s f => s.through o.keepForms f) (p.tokenizer.tokenize o text)

/-- The stream of the tokens of an input. -/
def analyze (p : Pipeline) (o : Options) (input : Input) : Except Failure Stream :=
  match input.decode with
  | .ok text => .ok (p.streamOfText o text)
  | .error failure => .error failure

/-- The filters of stages none of which is a tokenizer. -/
def filtersOf? : List Stage → Option (List Filter)
  | [] => some []
  | .tokenizer _ :: _ => none
  | .filter f :: rest => (filtersOf? rest).map (f :: ·)

/-- The pipeline with the given stages. -/
def ofStages (stages : List Stage) : Except Failure Pipeline :=
  let names := stages.map Stage.name
  match stages with
  | [] => .error (.composition .noStage)
  | .filter f :: _ => .error (.composition (.startsWithFilter f.name names))
  | .tokenizer t :: rest =>
    match filtersOf? rest with
    | some filters => .ok ⟨"pipeline_" ++ t.name, t, filters⟩
    | none => .error (.composition (.lateTokenizer names))

end Pipeline

end TextAnalysis
