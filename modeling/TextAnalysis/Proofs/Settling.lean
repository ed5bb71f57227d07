import TextAnalysis.Proofs.Cutting
import TextAnalysis.Proofs.Origin

/-!
# Filters that have settled

All tokens of one analysis have the same mode, so what its dispatching filters will do is known
before the first token: the filters of a pipeline are a list of workers (`Pipeline.workers`), and
waiting for the first token does not show. Statements about the tokens of a pipeline need to look at
workers only.

Main statement: `Pipeline.drain_behind`, the tokens of a pipeline with any filters behind it.
-/

set_option autoImplicit false

namespace TextAnalysis

/-- The filter as it is once it has met a token of the given mode. -/
def Running.settled (mode : String) (r : Running) : Running := .working (r.worker mode)

/-- A settled filter takes the step of the filter, and both are at work behind it. -/
theorem Running.step_settled {mode : String} {t : Token} (ht : t.mode = mode) (w : Workspace)
    (r : Running) :
    (r.settled mode).step w t = r.step w t ∧
      (r.step w t).filter.settled mode = (r.step w t).filter := by
  subst ht
  exact ⟨rfl, rfl⟩

/-- A token leaves settled filters as it leaves the filters, and both are settled behind it. -/
theorem passThrough_settled {mode : String} {t : Token} (ht : t.mode = mode) (w : Workspace)
    (filters : List Running) :
    passThrough w t (filters.map (Running.settled mode)) =
      let p := passThrough w t filters
      ⟨p.workspace, p.filter.map (Running.settled mode), p.token, p.kept⟩ := by
  induction filters generalizing w t with
  | nil => rfl
  | cons r rest ih =>
    obtain ⟨hstep, hfilter⟩ := Running.step_settled ht w r
    have hmode : (r.step w t).token.mode = mode := (Worker.sameOrigin_step _ w t).mode.trans ht
    rw [List.map_cons, passThrough, passThrough, hstep, ih hmode]
    dsimp only
    split
    · rw [List.map_cons, hfilter]
    · rw [List.map_cons, hfilter]

/-- Filters leave the same tokens before and after they have settled. -/
theorem tokensFrom_settled {mode : String} {record : Token} (hrecord : record.mode = mode)
    (w : Workspace) (filters : List Running) {updates : List Update}
    (hupdates : ∀ u ∈ updates, ∀ t, (u.apply t).mode = t.mode) :
    tokensFrom w record (filters.map (Running.settled mode)) updates =
      tokensFrom w record filters updates := by
  induction updates generalizing w record filters with
  | nil => rfl
  | cons u rest ih =>
    have hload : (u.apply record).mode = mode :=
      (hupdates u List.mem_cons_self record).trans hrecord
    have hpass : (passThrough w (u.apply record) filters).token.mode = mode :=
      (sameOrigin_passThrough w (u.apply record) filters).mode.trans hload
    have hrest := ih hpass (passThrough w (u.apply record) filters).workspace
      (passThrough w (u.apply record) filters).filter
      fun v hv => hupdates v (List.mem_cons_of_mem _ hv)
    rw [tokensFrom, tokensFrom, passThrough_settled hload]
    dsimp only
    rw [hrest]

/-- The updates of pieces leave the mode to the record. -/
theorem Piece.mode_of_mem_updatesFrom {o : Options} {index : Nat} {pieces : List Piece} {u : Update}
    (hu : u ∈ updatesFrom o index pieces) (t : Token) : (u.apply t).mode = t.mode := by
  obtain ⟨i, p, rfl⟩ := exists_of_mem_updatesFrom hu
  rw [apply_update]

namespace Pipeline

/-- The workers of an analysis, one for every filter that runs. -/
def workers (p : Pipeline) (o : Options) : List Worker :=
  (p.activeFilters o).map (Filter.settle o.keepForms o.mode)

/-- The tokens of a pipeline with any filters behind it are what its workers, and these filters once
they have settled, leave of the pieces. -/
theorem drain_behind (p : Pipeline) (o : Options) (text : String) (behind : List Running)
    (w : Workspace) :
    let s := p.streamOfText o text
    (({ s with filters := s.filters ++ behind } : Stream).drain w).1 =
      tokensFrom w (.ofOptions o)
        ((p.workers o).map .working ++ behind.map (Running.settled o.mode))
        (Piece.updatesFrom o 0 (p.tokenizer.cut o.tokenize text)) := by
  have hworkers : (p.workers o).map Running.working ++ behind.map (Running.settled o.mode) =
      ((p.activeFilters o).map (Running.ofFilter o.keepForms) ++ behind).map
        (Running.settled o.mode) := by
    rw [List.map_append, workers, List.map_map, List.map_map]
    congr 2
    funext f
    exact congrArg Running.working (Running.worker_ofFilter o.keepForms o.mode f).symm
  have hmode : (Token.ofOptions o).mode = o.mode := rfl
  dsimp only
  rw [hworkers, tokensFrom_settled hmode w _ fun u hu => Piece.mode_of_mem_updatesFrom hu,
    Stream.drain_fst, Stream.tokens, streamOfText_eq]
  dsimp only
  rw [(p.tokenizer.start_tokenize o text).1, Tokenizer.pending_tokenize, List.nil_append]
  rcases p.tokenizer.record_tokenize o text with hnil | hrecord
  · rw [hnil]
    rfl
  · rw [hrecord]

/-- The tokens of a pipeline are what its workers leave of the pieces. -/
theorem drain_streamOfText (p : Pipeline) (o : Options) (text : String) (w : Workspace) :
    ((p.streamOfText o text).drain w).1 =
      tokensFrom w (.ofOptions o) ((p.workers o).map .working)
        (Piece.updatesFrom o 0 (p.tokenizer.cut o.tokenize text)) := by
  have hbehind := p.drain_behind o text [] w
  dsimp only at hbehind
  rwa [List.append_nil, List.map_nil, List.append_nil] at hbehind

end Pipeline

end TextAnalysis
