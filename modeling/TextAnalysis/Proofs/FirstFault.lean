import TextAnalysis.Proofs.Composing

/-!
# The fault that composing reports

An expression is evaluated part by part: the left operand, the right operand, and then the
composition itself. Every composition looks at the stages that it has put together, and the first
one that finds a tokenizer behind another stage settles the fault of the whole expression
(`fault_eq_find?`). What is evaluated later, in whatever place it stands, finds a fault settled and
leaves it alone.

Main statement: `first_late_tokenizer_is_reported`.
-/

set_option autoImplicit false

namespace TextAnalysis

/-- Looking at stages finds a fault exactly where a tokenizer stands behind the first of them. -/
theorem Chain.orderFault?_eq (stages : List Stage) :
    orderFault? stages =
      if Stage.hasLateTokenizer stages then some (.lateTokenizer (stages.map Stage.name))
      else none :=
  rfl

namespace Composition

/-- The parts of an expression in the order in which they are evaluated. -/
def evaluated : Composition → List Composition
  | empty => [empty]
  | stage s => [stage s]
  | pipeline p => [pipeline p]
  | andThen first second => first.evaluated ++ second.evaluated ++ [andThen first second]

/-- Does a tokenizer stand behind the first stage of the expression? -/
def IsLate (c : Composition) : Prop :=
  ∃ i, 1 ≤ i ∧ ∃ t, c.leaves[i]? = some (.tokenizer t)

/-- A tokenizer comes too late exactly where a node of the expression is late. -/
theorem isLate_iff (c : Composition) : c.IsLate ↔ Stage.hasLateTokenizer c.leaves = true :=
  (Stage.hasLateTokenizer_iff c.leaves).symm

/-- The fault of an expression whose stages are out of order. -/
def orderFault (c : Composition) : CompositionFault := .lateTokenizer (c.leaves.map Stage.name)

/-- The first part in the order of evaluation whose stages are out of order settles the fault. -/
theorem fault_eq_find? (c : Composition) :
    c.chain.fault =
      (c.evaluated.find? fun d => Stage.hasLateTokenizer d.leaves).map orderFault := by
  induction c with
  | empty => rfl
  | stage s => rfl
  | pipeline p =>
    -- a pipeline is in order by its type
    have hordered : Stage.hasLateTokenizer p.stages = false := by
      rw [Stage.hasLateTokenizer_eq_false_iff]
      simp [Pipeline.stages, Stage.isTokenizer]
    rw [evaluated, List.find?_singleton, leaves, hordered]
    rfl
  | andThen first second ihfirst ihsecond =>
    have hwhole : Chain.orderFault? (first.chain.stages ++ second.chain.stages) =
        ([andThen first second].find? fun d => Stage.hasLateTokenizer d.leaves).map
          orderFault := by
      rw [chain_stages, chain_stages, Chain.orderFault?_eq, List.find?_singleton, leaves]
      split <;> rfl
    rw [chain, Chain.andThen, ihfirst, ihsecond, hwhole, evaluated, List.find?_append,
      List.find?_append, Option.map_or, Option.map_or]

/-- The fault of every expression that is evaluated like this one up to the part that settles it. -/
theorem fault_of_prefix {c d : Composition} {before : List Composition}
    (hparts : before ++ [d] <+: c.evaluated) (hlate : d.IsLate)
    (hfirst : ∀ e ∈ before, ¬ e.IsLate) : c.chain.fault = some d.orderFault := by
  obtain ⟨after, hafter⟩ := hparts
  have hnone : before.find? (fun e => Stage.hasLateTokenizer e.leaves) = none := by
    rw [List.find?_eq_none]
    intro e he
    rw [← isLate_iff]
    exact hfirst e he
  have hfound : ([d] ++ after).find? (fun e => Stage.hasLateTokenizer e.leaves) = some d :=
    List.find?_cons_of_pos ((isLate_iff d).mp hlate)
  rw [fault_eq_find?, ← hafter, List.append_assoc, List.find?_append, hnone, hfound]
  rfl

/-- A fault of the chain is the fault of the build. -/
theorem build_of_fault {c : Composition} {fault : CompositionFault}
    (h : c.chain.fault = some fault) : c.build = .error (.composition fault) := by
  rw [build, Chain.build, h]

/-- Where some part of an expression has a tokenizer behind its first stage, the first such part in
the order of evaluation settles the fault: it names the stages of this part. Every expression that
is evaluated in the same way up to this part has the same fault, whatever is evaluated afterwards,
and building it reports this fault, whatever stage it begins with. -/
theorem first_late_tokenizer_is_reported (c : Composition) (h : ∃ d ∈ c.evaluated, d.IsLate) :
    ∃ before d after, c.evaluated = before ++ d :: after ∧ d.IsLate ∧
      (∀ e ∈ before, ¬ e.IsLate) ∧
      (c.chain.fault.map CompositionFault.message = some
        ("only one tokenizer allowed at the start of the analyzer: [" ++
          String.intercalate ", " (d.leaves.map Stage.name) ++ "]")) ∧
      ∀ whole : Composition, before ++ [d] <+: whole.evaluated →
        whole.chain.fault = c.chain.fault ∧
        ∃ failure, whole.build = .error failure ∧ failure.isComposition = true ∧
          failure.message =
            "Composition error: only one tokenizer allowed at the start of the analyzer: [" ++
              String.intercalate ", " (d.leaves.map Stage.name) ++ "]" := by
  obtain ⟨d', hd', hlate'⟩ := h
  have hsome : (c.evaluated.find? fun d => Stage.hasLateTokenizer d.leaves).isSome = true := by
    rw [List.find?_isSome]
    exact ⟨d', hd', (isLate_iff d').mp hlate'⟩
  obtain ⟨d, hd⟩ := Option.isSome_iff_exists.mp hsome
  obtain ⟨hlate, before, after, hparts, hbefore⟩ := List.find?_eq_some_iff_append.mp hd
  rw [← isLate_iff] at hlate
  have hfirst : ∀ e ∈ before, ¬ e.IsLate := by
    intro e he
    rw [isLate_iff]
    simpa using hbefore e he
  have hc : before ++ [d] <+: c.evaluated := ⟨after, by rw [hparts]; simp⟩
  have hfault := fault_of_prefix hc hlate hfirst
  refine ⟨before, d, after, hparts, hlate, hfirst, ?_, fun whole hwhole => ?_⟩
  · rw [hfault]
    rfl
  · have hfault' := fault_of_prefix hwhole hlate hfirst
    exact ⟨hfault'.trans hfault.symm, _, build_of_fault hfault', rfl, rfl⟩

/-- Of three parts that are out of order, the second operand of the first operand is evaluated first.
That the whole begins with a filter does not show. -/
theorem first_late_tokenizer_is_reported_id_charset :
    let pair := andThen (stage (.tokenizer .whole)) (stage (.tokenizer (.charset {})))
    let c := andThen (andThen (stage (.filter .lowercase)) pair)
      (andThen (stage (.filter .strip)) (stage (.tokenizer .whole)))
    (∃ d ∈ c.evaluated, d.IsLate) ∧
      (∃ before d after, c.evaluated = before ++ d :: after ∧ d.IsLate ∧
        c.chain.fault.map CompositionFault.message = some
          ("only one tokenizer allowed at the start of the analyzer: [" ++
            String.intercalate ", " (d.leaves.map Stage.name) ++ "]")) ∧
      c.chain.fault = some (.lateTokenizer ["id", "charset"]) := by
  intro pair c
  have hlate : ∃ d ∈ c.evaluated, d.IsLate :=
    ⟨pair, by simp [c, pair, evaluated], 1, Nat.le_refl 1, .charset {}, rfl⟩
  obtain ⟨before, d, after, hparts, hd, -, hmessage, -⟩ := first_late_tokenizer_is_reported c hlate
  exact ⟨hlate, ⟨before, d, after, hparts, hd, hmessage⟩, by decide⟩

end Composition

end TextAnalysis
