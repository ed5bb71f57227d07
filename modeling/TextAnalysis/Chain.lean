import TextAnalysis.Pipeline

/-!
# Chains of stages

A chain is a pipeline in the making. Composing two chains puts their stages one after the other;
where a tokenizer then stands behind another stage, the chain remembers it, and the first such fault
is reported when the chain is built.
-/

set_option autoImplicit false

namespace TextAnalysis

/-- Stages composed so far, with the first fault in their order. -/
structure Chain where
  stages : List Stage := []
  fault : Option CompositionFault := none

namespace Chain

/-- The chain of one stage. -/
def ofStage (s : Stage) : Chain := { stages := [s] }

/-- The chain of the stages of a pipeline. -/
def ofPipeline (p : Pipeline) : Chain := { stages := p.stages }

/-- The fault of stages of which a later one is a tokenizer. -/
def orderFault? (stages : List Stage) : Option CompositionFault :=
  if (stages.drop 1).any Stage.isTokenizer then some (.lateTokenizer (stages.map Stage.name))
  else none

/-- The stages of a chain followed by those of another. The first fault stays. -/
def andThen (c d : Chain) : Chain :=
  let stages := c.stages ++ d.stages
  ⟨stages, (c.fault.or d.fault).or (orderFault? stages)⟩

/-- The pipeline of a chain. -/
def build (c : Chain) : Except Failure Pipeline :=
  match c.fault with
  | some fault => .error (.composition fault)
  | none => Pipeline.ofStages c.stages

end Chain

/-- An expression that composes stages, pipelines and chains. -/
inductive Composition where
  | empty
  | stage (s : Stage)
  | pipeline (p : Pipeline)
  | andThen (first second : Composition)

namespace Composition

/-- The chain of an expression. -/
def chain : Composition → Chain
  | empty => {}
  | stage s => .ofStage s
  | pipeline p => .ofPipeline p
  | andThen first second => first.chain.andThen second.chain

/-- The stages of an expression from left to right. -/
def leaves : Composition → List Stage
  | empty => []
  | stage s => [s]
  | pipeline p => p.stages
  | andThen first second => first.leaves ++ second.leaves

/-- The expression built into a pipeline. -/
def build (c : Composition) : Except Failure Pipeline := c.chain.build

end Composition

end TextAnalysis
