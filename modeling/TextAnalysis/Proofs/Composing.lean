import TextAnalysis.Chain
import TextAnalysis.Proofs.Sameness

/-!
# Composing stages

Whether an expression of stages, pipelines and chains builds, and what it builds, depends on its
leaves alone: the stages that it lists from left to right. The expression may be parenthesised in
any way, hold empty chains, or splice whole pipelines.

The invariant of every subexpression is that its chain holds its leaves in order, and a fault exactly
where a tokenizer stands behind the first of them (`chain_stages`, `isSome_chain_fault`). What the
leaves have to be for a pipeline is `Pipeline.ofStages_eq_ok_iff`. Main statement:
`outcome_of_leaves`.
-/

set_option autoImplicit false

namespace TextAnalysis

namespace Stage

/-- Does a tokenizer stand behind the first of the stages? -/
def hasLateTokenizer (stages : List Stage) : Bool := (stages.drop 1).any isTokenizer

/-- A late tokenizer stands at some index from one on. -/
theorem hasLateTokenizer_iff (stages : List Stage) :
    hasLateTokenizer stages = true ↔ ∃ i, 1 ≤ i ∧ ∃ t, stages[i]? = some (.tokenizer t) := by
  simp only [hasLateTokenizer, List.any_eq_true, List.mem_iff_getElem?, List.getElem?_drop]
  constructor
  · rintro ⟨s, ⟨i, hi⟩, hs⟩
    cases s with
    | tokenizer t => exact ⟨1 + i, by omega, t, hi⟩
    | filter f => simp [isTokenizer] at hs
  · rintro ⟨i, hi, t, ht⟩
    refine ⟨.tokenizer t, ⟨i - 1, ?_⟩, rfl⟩
    rwa [show 1 + (i - 1) = i by omega]

/-- A tokenizer that comes too late stays late behind other stages. -/
theorem hasLateTokenizer_append_left (first : List Stage) {stages : List Stage}
    (h : hasLateTokenizer stages = true) : hasLateTokenizer (first ++ stages) = true := by
  obtain ⟨i, hi, t, ht⟩ := (hasLateTokenizer_iff stages).mp h
  refine (hasLateTokenizer_iff _).mpr ⟨first.length + i, by omega, t, ?_⟩
  rw [List.getElem?_append_right (by omega)]
  simpa using ht

/-- So it does in front of others. -/
theorem hasLateTokenizer_append_right {stages : List Stage} (last : List Stage)
    (h : hasLateTokenizer stages = true) : hasLateTokenizer (stages ++ last) = true := by
  obtain ⟨i, hi, t, ht⟩ := (hasLateTokenizer_iff stages).mp h
  refine (hasLateTokenizer_iff _).mpr ⟨i, hi, t, ?_⟩
  obtain ⟨hlt, -⟩ := List.getElem?_eq_some_iff.mp ht
  rw [List.getElem?_append_left hlt, ht]

/-- Stages none of which is a tokenizer are filters. -/
theorem exists_eq_map_filter {stages : List Stage} (h : ∀ s ∈ stages, s.isTokenizer = false) :
    ∃ fs : List Filter, stages = fs.map .filter := by
  induction stages with
  | nil => exact ⟨[], rfl⟩
  | cons s rest ih =>
    obtain ⟨fs, rfl⟩ := ih fun s hs => h s (List.mem_cons_of_mem _ hs)
    cases s with
    | tokenizer t => simpa [isTokenizer] using h (.tokenizer t) List.mem_cons_self
    | filter f => exact ⟨f :: fs, rfl⟩

/-- No tokenizer comes too late where none stands behind the first stage. -/
theorem hasLateTokenizer_eq_false_iff (stages : List Stage) :
    hasLateTokenizer stages = false ↔ ∀ s ∈ stages.tail, s.isTokenizer = false := by
  simp [hasLateTokenizer]

end Stage

namespace Pipeline

/-- Stages have filters exactly where these are the stages. -/
theorem filtersOf?_eq_some_iff (stages : List Stage) (fs : List Filter) :
    filtersOf? stages = some fs ↔ stages = fs.map .filter := by
  induction stages generalizing fs with
  | nil => cases fs <;> simp [filtersOf?]
  | cons s rest ih =>
    cases s with
    | tokenizer t => cases fs <;> simp [filtersOf?]
    | filter f =>
      cases fs with
      | nil => simp [filtersOf?]
      | cons g gs =>
        simp only [filtersOf?, Option.map_eq_some_iff, ih, List.cons.injEq, List.map_cons,
          Stage.filter.injEq]
        constructor
        · rintro ⟨fs, hrest, rfl, rfl⟩
          exact ⟨rfl, hrest⟩
        · rintro ⟨rfl, hrest⟩
          exact ⟨gs, hrest, rfl, rfl⟩

/-- Stages make a pipeline exactly where a tokenizer comes first and filters follow; it is the
pipeline of these, named for its tokenizer. -/
theorem ofStages_eq_ok_iff (stages : List Stage) (p : Pipeline) :
    ofStages stages = .ok p ↔
      ∃ t fs, stages = .tokenizer t :: fs.map .filter ∧ p = ⟨"pipeline_" ++ t.name, t, fs⟩ := by
  unfold ofStages
  split
  · simp
  · simp
  · next t rest =>
    cases h : filtersOf? rest with
    | none =>
      simp only [reduceCtorEq, List.cons.injEq, Stage.tokenizer.injEq, false_iff, not_exists]
      rintro t' fs ⟨⟨rfl, hrest⟩, -⟩
      rw [(filtersOf?_eq_some_iff rest fs).mpr hrest] at h
      simp at h
    | some fs =>
      rw [filtersOf?_eq_some_iff] at h
      subst h
      constructor
      · intro hp
        exact ⟨t, fs, rfl, (Except.ok.inj hp).symm⟩
      · rintro ⟨t', fs', hs, rfl⟩
        obtain ⟨rfl, hfs⟩ : t = t' ∧ fs.map Stage.filter = fs'.map Stage.filter := by
          simpa using hs
        rw [(List.map_inj_right fun _ _ => Stage.filter.inj).mp hfs]

/-- Stages fail to make a pipeline for a fault of composition only. -/
theorem isComposition_of_ofStages {stages : List Stage} {e : Failure}
    (h : ofStages stages = .error e) : e.isComposition = true := by
  unfold ofStages at h
  split at h
  · cases h; rfl
  · cases h; rfl
  · split at h
    · cases h
    · cases h; rfl

/-- Filters are added at the end, in their order. -/
theorem foldl_addFilter (p : Pipeline) (fs : List Filter) :
    fs.foldl addFilter p = { p with filters := p.filters ++ fs } := by
  induction fs generalizing p with
  | nil => simp
  | cons f fs ih => simp [ih, addFilter]

end Pipeline

/-- The order of stages is wrong exactly where a tokenizer comes too late. -/
theorem Chain.isSome_orderFault? (stages : List Stage) :
    (Chain.orderFault? stages).isSome = Stage.hasLateTokenizer stages := by
  unfold Chain.orderFault? Stage.hasLateTokenizer
  split <;> simp_all

namespace Composition

/-- A chain has the leaves of its expression as its stages. -/
theorem chain_stages (c : Composition) : c.chain.stages = c.leaves := by
  induction c with
  | empty => rfl
  | stage s => rfl
  | pipeline p => rfl
  | andThen first second ihf ihs => simp [chain, leaves, Chain.andThen, ihf, ihs]

/-- The chain of an expression has a fault exactly where its leaves have a late tokenizer. -/
theorem isSome_chain_fault (c : Composition) :
    c.chain.fault.isSome = Stage.hasLateTokenizer c.leaves := by
  induction c with
  | empty => rfl
  | stage s => rfl
  | pipeline p =>
    have htail : ∀ s ∈ p.stages.tail, s.isTokenizer = false := by
      simp [Pipeline.stages, Stage.isTokenizer]
    rw [leaves, (Stage.hasLateTokenizer_eq_false_iff p.stages).mpr htail]
    rfl
  | andThen first second ihf ihs =>
    simp only [chain, Chain.andThen, chain_stages, leaves, Option.isSome_or, ihf, ihs,
      Chain.isSome_orderFault?]
    -- A fault of an operand stays a fault of the whole, so the last test decides.
    cases hf : Stage.hasLateTokenizer first.leaves with
    | true => simp [Stage.hasLateTokenizer_append_right second.leaves hf]
    | false =>
      cases hs : Stage.hasLateTokenizer second.leaves with
      | true => simp [Stage.hasLateTokenizer_append_left first.leaves hs]
      | false => simp

/-- An expression builds the pipeline that its leaves make. -/
theorem build_eq_ok_iff (c : Composition) (p : Pipeline) :
    c.build = .ok p ↔ Pipeline.ofStages c.leaves = .ok p := by
  have hlate := isSome_chain_fault c
  unfold build Chain.build
  cases hfault : c.chain.fault with
  | none => rw [chain_stages]
  | some fault =>
    rw [hfault, Option.isSome_some] at hlate
    -- The leaves have a late tokenizer, so they make no pipeline either.
    constructor
    · intro h
      cases h
    · intro h
      obtain ⟨t, fs, hleaves, -⟩ := (Pipeline.ofStages_eq_ok_iff c.leaves p).mp h
      have hnone : Stage.hasLateTokenizer c.leaves = false := by
        rw [Stage.hasLateTokenizer_eq_false_iff, hleaves]
        simp [Stage.isTokenizer]
      rw [hnone] at hlate
      cases hlate

/-- A build only fails in its composition. -/
theorem isComposition_of_build {c : Composition} {e : Failure} (h : c.build = .error e) :
    e.isComposition = true := by
  unfold build Chain.build at h
  split at h
  · cases h; rfl
  · exact Pipeline.isComposition_of_ofStages h

/-- Building an expression succeeds as building from its leaves does, with the same pipeline. -/
theorem toOption_build (c : Composition) :
    c.build.toOption = (Pipeline.ofStages c.leaves).toOption := by
  cases hb : c.build with
  | ok p => rw [(build_eq_ok_iff c p).mp hb]
  | error e =>
    cases hs : Pipeline.ofStages c.leaves with
    | ok p => rw [← build_eq_ok_iff, hb] at hs; cases hs
    | error e' => rfl

/-- **The outcome of composing depends on the leaves alone.** A fault is remembered exactly where a
tokenizer stands at some index from one on. The expression builds exactly where it has leaves, the
first a tokenizer and all later ones filters. The pipeline then has just these stages, and it is the
one that the stages make when they are given at once, and the one of the tokenizer with the filters
added one by one. Where the expression does not build, neither do its leaves, and both failures are
failures to compose. Two expressions with the same leaves have one outcome. -/
theorem outcome_of_leaves (c : Composition) :
    (c.chain.fault.isSome = true ↔ ∃ i, 1 ≤ i ∧ ∃ t, c.leaves[i]? = some (.tokenizer t)) ∧
    ((∃ p, c.build = .ok p) ↔
      c.leaves ≠ [] ∧ (∃ t, c.leaves.head? = some (.tokenizer t)) ∧
        ∀ s ∈ c.leaves.tail, ∃ f, s = .filter f) ∧
    (∀ p, c.build = .ok p →
      p.stages = c.leaves ∧
      (∃ q, Pipeline.ofStages c.leaves = .ok q ∧ p.same q = true ∧ p.name = q.name) ∧
      ∃ t, ∃ fs : List Filter, c.leaves = .tokenizer t :: fs.map .filter ∧
        p.same (fs.foldl Pipeline.addFilter (.ofTokenizer t)) = true ∧
        p.name = (fs.foldl Pipeline.addFilter (.ofTokenizer t)).name) ∧
    (∀ e, c.build = .error e →
      e.isComposition = true ∧
      ∃ e', Pipeline.ofStages c.leaves = .error e' ∧ e'.isComposition = true) ∧
    ∀ d : Composition, d.leaves = c.leaves →
      d.chain.fault.isSome = c.chain.fault.isSome ∧ d.build.toOption = c.build.toOption := by
  refine ⟨?fault, ?builds, ?built, ?fails, ?alike⟩
  case fault =>
    rw [isSome_chain_fault, Stage.hasLateTokenizer_iff]
  case builds =>
    simp only [build_eq_ok_iff, Pipeline.ofStages_eq_ok_iff]
    constructor
    · rintro ⟨p, t, fs, hleaves, -⟩
      simp [hleaves]
    · rintro ⟨-, ⟨t, hhead⟩, htail⟩
      obtain ⟨rest, hleaves⟩ := List.head?_eq_some_iff.mp hhead
      rw [hleaves, List.tail_cons] at htail
      obtain ⟨fs, rfl⟩ := Stage.exists_eq_map_filter fun s hs => by
        obtain ⟨f, rfl⟩ := htail s hs
        rfl
      exact ⟨_, t, fs, hleaves, rfl⟩
  case built =>
    intro p hp
    rw [build_eq_ok_iff] at hp
    obtain ⟨t, fs, hleaves, rfl⟩ := (Pipeline.ofStages_eq_ok_iff _ _).mp hp
    refine ⟨hleaves.symm, ⟨_, hp, Pipeline.same_of_eq rfl rfl, rfl⟩, t, fs, hleaves, ?_, ?_⟩
    · rw [Pipeline.foldl_addFilter]
      exact Pipeline.same_of_eq rfl rfl
    · rw [Pipeline.foldl_addFilter]
      rfl
  case fails =>
    intro e he
    refine ⟨isComposition_of_build he, ?_⟩
    cases hs : Pipeline.ofStages c.leaves with
    | ok p => rw [← build_eq_ok_iff, he] at hs; cases hs
    | error e' => exact ⟨e', rfl, Pipeline.isComposition_of_ofStages hs⟩
  case alike =>
    intro d hd
    rw [isSome_chain_fault, isSome_chain_fault, toOption_build, toOption_build, hd]
    exact ⟨rfl, rfl⟩

end Composition

end TextAnalysis
