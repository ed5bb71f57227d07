import TextAnalysis.Proofs.Caching
import TextAnalysis.Proofs.Settling

/-!
# The stop filters of an analysis

Which stop filters a token passes is decided by its mode: a dispatching filter counts as the filter
that it selects (`Pipeline.stopFilters`). They are the stop filters among the workers of the
analysis. All other workers have no state and keep every token; they change its text only.
-/

set_option autoImplicit false

namespace TextAnalysis

mutual

/-- The stop filters that tokens of the given mode pass. -/
def Filter.stopFilters (mode : String) : Filter → List StopFilter
  | .dispatch d => d.stopFilters mode
  | .stop f => [f]
  | _ => []

/-- The stop filters that tokens of the given mode pass in a dispatching filter. -/
def Dispatch.stopFilters (mode : String) : Dispatch → List StopFilter
  | .otherwise f => f.stopFilters mode
  | .mode m f rest => if m = mode then f.stopFilters mode else rest.stopFilters mode

end

/-- The stop filters that tokens of the given mode pass, in order. -/
def Pipeline.stopFilters (p : Pipeline) (mode : String) : List StopFilter :=
  p.filters.flatMap (Filter.stopFilters mode)

/-- What a reporting filter reports of a token. -/
def Reporter.event (r : Reporter) (t : Token) : Event :=
  match r.sink with
  | some sink => .line sink t.describe
  | none => .message .debug (some r.target) t.describe

namespace Worker

/-- The stop filter of a worker, if it is one. -/
def stopFilters : Worker → List StopFilter
  | stop f _ => [f]
  | _ => []

/-- The worker as it is before the first token. -/
def fresh : Worker → Worker
  | stop f _ => .stop f none
  | k => k

/-- A worker has the same stop filters before its first token, -/
theorem stopFilters_fresh (k : Worker) : k.fresh.stopFilters = k.stopFilters := by
  cases k <;> rfl

/-- and the same stem filters. -/
theorem stemFilters_fresh (k : Worker) : k.fresh.stemFilters = k.stemFilters := by
  cases k <;> rfl

/-- What a worker was before the first token drops marked tokens exactly if the worker does. -/
theorem fresh_eq_unstopped_iff (k : Worker) : k.fresh = .unstopped ↔ k = .unstopped := by
  cases k <;> simp [fresh]

/-- A stem filter leaves marked tokens and the words to be ignored alone, and their stems are not
looked up. -/
theorem step_stem_of_ignored {f : StemFilter} {t : Token}
    (h : (t.stopped || f.ignored.contains t.text) = true) (w : Workspace) :
    (stem f).step w t = ⟨w, stem f, t, true⟩ := by
  rw [step, if_pos h]

/-- A word that is not ignored is replaced by its stem. -/
theorem step_stem_of_not_ignored {f : StemFilter} {t : Token}
    (h : (t.stopped || f.ignored.contains t.text) = false) (w : Workspace) :
    (stem f).step w t =
      ⟨(w.stem f t.text).2, stem f, { t with text := (w.stem f t.text).1 }, true⟩ := by
  rw [step, if_neg (by rw [h]; exact Bool.false_ne_true)]

/-- A reporting filter reports a token and lets it go on. -/
theorem step_report (r : Reporter) (w : Workspace) (t : Token) :
    (report r).step w t = ⟨w.report (r.event t), report r, t, true⟩ := by
  cases hsink : r.sink with
  | some sink => simp only [step, Reporter.event, hsink]
  | none => simp only [step, Reporter.event, hsink]

/-- A worker that is not a stop filter changes the text of a token only, and stays as it is. -/
theorem step_of_stopFilters_eq_nil {k : Worker} (hstop : k.stopFilters = [])
    (hfilter : k ≠ .unstopped) (w : Workspace) (t : Token) :
    ∃ w' text, k.step w t = ⟨w', k, { t with text := text }, true⟩ := by
  cases k with
  | stop f last => cases hstop
  | unstopped => exact absurd rfl hfilter
  | stem f =>
    cases hignored : t.stopped || f.ignored.contains t.text with
    | true => exact ⟨w, t.text, step_stem_of_ignored hignored w⟩
    | false => exact ⟨_, _, step_stem_of_not_ignored hignored w⟩
  | report r => exact ⟨_, t.text, step_report r w t⟩
  | pass => exact ⟨w, t.text, rfl⟩
  | lowercase | strip | charset => exact ⟨w, _, rfl⟩

/-- A worker with stop filters is a stop filter. -/
theorem eq_stop_of_stopFilters_ne_nil {k : Worker} (h : k.stopFilters ≠ []) :
    ∃ f last, k = stop f last := by
  cases k with
  | stop f last => exact ⟨f, last, rfl⟩
  | _ => exact absurd rfl h

/-- All that a worker may remember is the last position of a stop filter. -/
theorem fresh_step (k : Worker) (w : Workspace) (t : Token) :
    (k.step w t).filter.fresh = k.fresh := by
  cases k with
  | stem f =>
    unfold step
    dsimp only
    split <;> rfl
  | report r =>
    unfold step
    dsimp only
    split <;> rfl
  | pass | lowercase | strip | charset | stop | unstopped => rfl

end Worker

namespace StopFilter

/-- The position that a token gets that is not stopped, and the last position given then. -/
def renumbered (f : StopFilter) (last position : Option Nat) : Option Nat × Option Nat :=
  match f.renumber, position with
  | true, some p =>
    let p := match last with
      | some last => Saturating.add last 1
      | none => p
    (some p, some p)
  | _, _ => (position, last)

/-- Without renumbering, positions stay as they are. -/
theorem renumbered_of_not_renumber {f : StopFilter} (h : f.renumber = false)
    (last position : Option Nat) : f.renumbered last position = (position, last) := by
  simp only [renumbered, h]

/-- A stopped token is dropped, or marked and not renumbered. -/
theorem apply_of_stops {t : Token} (f : StopFilter) (h : f.stops t.text = true)
    (last : Option Nat) :
    f.apply last t =
      if t.removeStopped then (t, last, false) else ({ t with stopped := true }, last, true) := by
  rw [apply, if_pos h]

/-- A token that is not stopped is renumbered, and has no mark. -/
theorem apply_of_not_stops {t : Token} (f : StopFilter) (h : f.stops t.text = false)
    (last : Option Nat) :
    f.apply last t =
      ({ t with stopped := false, position := (f.renumbered last t.position).1 },
        (f.renumbered last t.position).2, true) := by
  unfold apply renumbered
  rw [if_neg (by rw [h]; exact Bool.false_ne_true)]
  dsimp only
  cases f.renumber <;> cases t.position <;> cases last <;> rfl

end StopFilter

namespace Worker

variable {f : StopFilter} {t : Token}

/-- A stop filter that drops a token keeps nothing of it, -/
theorem step_stop_of_drops (h : f.stops t.text = true) (hdrops : t.removeStopped = true)
    (last : Option Nat) (w : Workspace) : (stop f last).step w t = ⟨w, stop f last, t, false⟩ := by
  rw [step, f.apply_of_stops h, if_pos hdrops]

/-- one that marks it changes nothing else, -/
theorem step_stop_of_marks (h : f.stops t.text = true) (hmarks : t.removeStopped = false)
    (last : Option Nat) (w : Workspace) :
    (stop f last).step w t = ⟨w, stop f last, { t with stopped := true }, true⟩ := by
  rw [step, f.apply_of_stops h, if_neg (by rw [hmarks]; exact Bool.false_ne_true)]

/-- and one that lets it go on remembers its position. -/
theorem step_stop_of_not_stops (h : f.stops t.text = false) (last : Option Nat) (w : Workspace) :
    (stop f last).step w t =
      ⟨w, stop f (f.renumbered last t.position).2,
        { t with stopped := false, position := (f.renumbered last t.position).1 }, true⟩ := by
  rw [step, f.apply_of_not_stops h]

/-- All that a stop filter can do with a token: it passes it on, marks it or drops it. -/
theorem step_stop_cases (f : StopFilter) (last : Option Nat) (w : Workspace) (t : Token) :
    (f.stops t.text = false ∧ (stop f last).step w t =
        ⟨w, stop f (f.renumbered last t.position).2,
          { t with stopped := false, position := (f.renumbered last t.position).1 }, true⟩) ∨
      (f.stops t.text = true ∧ t.removeStopped = false ∧
        (stop f last).step w t = ⟨w, stop f last, { t with stopped := true }, true⟩) ∨
      (f.stops t.text = true ∧ t.removeStopped = true ∧
        (stop f last).step w t = ⟨w, stop f last, t, false⟩) := by
  by_cases hstops : f.stops t.text = true
  · by_cases hremove : t.removeStopped = true
    · exact .inr (.inr ⟨hstops, hremove, step_stop_of_drops hstops hremove last w⟩)
    · have hmarks := Bool.eq_false_iff.mpr hremove
      exact .inr (.inl ⟨hstops, hmarks, step_stop_of_marks hstops hmarks last w⟩)
  · have hpasses := Bool.eq_false_iff.mpr hstops
    exact .inl ⟨hpasses, step_stop_of_not_stops hpasses last w⟩

end Worker

/-! ## Passing a token through workers -/

/-- A token that a worker keeps goes on to the others. -/
theorem passThrough_cons_of_kept {w w' : Workspace} {t t' : Token} {k k' : Worker}
    (h : k.step w t = ⟨w', k', t', true⟩) (rest : List Running) :
    passThrough w t (.working k :: rest) =
      let p := passThrough w' t' rest
      ⟨p.workspace, .working k' :: p.filter, p.token, p.kept⟩ := by
  have hstep : (Running.working k).step w t = ⟨w', .working k', t', true⟩ := by
    simp only [Running.step, Running.worker, h]
  rw [passThrough, hstep]
  rfl

/-- One that it drops goes no further. -/
theorem passThrough_cons_of_dropped {w w' : Workspace} {t t' : Token} {k k' : Worker}
    (h : k.step w t = ⟨w', k', t', false⟩) (rest : List Running) :
    passThrough w t (.working k :: rest) = ⟨w', .working k' :: rest, t', false⟩ := by
  have hstep : (Running.working k).step w t = ⟨w', .working k', t', false⟩ := by
    simp only [Running.step, Running.worker, h]
  rw [passThrough, hstep]
  rfl

/-- Workers none of which is a stop filter keep every token, change its text only, and stay as they
are. -/
theorem passThrough_of_stopFilters_eq_nil {ks : List Worker}
    (hstops : ks.flatMap Worker.stopFilters = []) (hfilters : ∀ k ∈ ks, k ≠ .unstopped)
    (w : Workspace) (t : Token) :
    ∃ w' text, passThrough w t (ks.map .working) =
      ⟨w', ks.map .working, { t with text := text }, true⟩ := by
  induction ks generalizing w t with
  | nil => exact ⟨w, t.text, rfl⟩
  | cons k rest ih =>
    rw [List.flatMap_cons, List.append_eq_nil_iff] at hstops
    obtain ⟨w₁, text₁, hstep⟩ :=
      k.step_of_stopFilters_eq_nil hstops.1 (hfilters k List.mem_cons_self) w t
    obtain ⟨w₂, text₂, hrest⟩ := ih hstops.2 (fun q hq => hfilters q (List.mem_cons_of_mem _ hq))
      w₁ { t with text := text₁ }
    refine ⟨w₂, text₂, ?_⟩
    rw [List.map_cons, passThrough_cons_of_kept hstep, hrest]

/-- Workers stay workers, with the same filters. -/
theorem exists_workers_passThrough (w : Workspace) (t : Token) (ks : List Worker) :
    ∃ ks' : List Worker, (passThrough w t (ks.map .working)).filter = ks'.map .working ∧
      ks'.map Worker.fresh = ks.map Worker.fresh := by
  induction ks generalizing w t with
  | nil => exact ⟨[], rfl, rfl⟩
  | cons k rest ih =>
    have hfresh := k.fresh_step w t
    obtain ⟨ks', hfilters, hrest⟩ := ih (k.step w t).workspace (k.step w t).token
    rw [List.map_cons, passThrough]
    dsimp only
    split
    · exact ⟨(k.step w t).filter :: ks', congrArg (List.cons _) hfilters,
        by rw [List.map_cons, List.map_cons, hfresh, hrest]⟩
    · exact ⟨(k.step w t).filter :: rest, rfl, by rw [List.map_cons, List.map_cons, hfresh]⟩

section Fresh

variable {ks ks' : List Worker}

/-- What does not depend on the state of workers is the same for workers with the same filters. -/
theorem flatMap_congr_of_fresh {β : Type} {g : Worker → List β} (hg : ∀ k, g k.fresh = g k)
    (h : ks'.map Worker.fresh = ks.map Worker.fresh) : ks'.flatMap g = ks.flatMap g := by
  have hfresh : ∀ ks : List Worker, ks.flatMap g = (ks.map Worker.fresh).flatMap g := by
    intro ks
    rw [List.flatMap_map]
    congr 1
    funext k
    exact (hg k).symm
  rw [hfresh, h, ← hfresh]

/-- Whether a worker drops marked tokens does not depend on those it has seen. -/
theorem ne_unstopped_congr (h : ks'.map Worker.fresh = ks.map Worker.fresh)
    (hks : ∀ k ∈ ks, k ≠ .unstopped) : ∀ k ∈ ks', k ≠ .unstopped := by
  rintro k hk rfl
  have hmem : Worker.unstopped ∈ ks.map Worker.fresh := h ▸ List.mem_map.mpr ⟨_, hk, rfl⟩
  obtain ⟨k, hk, hfresh⟩ := List.mem_map.mp hmem
  exact hks k hk (k.fresh_eq_unstopped_iff.mp hfresh)

end Fresh

/-! ## The workers of a pipeline -/

/-- Morphological filters stop nothing. -/
theorem Filter.stopFilters_of_isMorph {f : Filter} (h : f.isMorph = true) (mode : String) :
    f.stopFilters mode = [] := by
  cases f <;> first | rfl | cases h

mutual

/-- A filter that is settled on a mode stops what it stops in tokens of this mode. -/
theorem Filter.stopFilters_settle (keepForms : Bool) (mode : String) :
    ∀ f : Filter, (f.settle keepForms mode).stopFilters = f.stopFilters mode
  | .dispatch d => d.stopFilters_settle keepForms mode
  | .pass | .lowercase | .strip => rfl
  | .charset _ | .stop _ | .stem _ | .report _ => rfl

/-- So does a dispatching filter. -/
theorem Dispatch.stopFilters_settle (keepForms : Bool) (mode : String) :
    ∀ d : Dispatch, (d.settle keepForms mode).stopFilters = d.stopFilters mode
  | .otherwise f => by
    rw [Dispatch.settle, Dispatch.stopFilters]
    split
    · next hskip => rw [f.stopFilters_of_isMorph (Bool.and_eq_true_iff.mp hskip).2 mode]; rfl
    · exact f.stopFilters_settle keepForms mode
  | .mode m f rest => by
    rw [Dispatch.settle, Dispatch.stopFilters]
    split
    · split
      · next hskip => rw [f.stopFilters_of_isMorph (Bool.and_eq_true_iff.mp hskip).2 mode]; rfl
      · exact f.stopFilters_settle keepForms mode
    · exact rest.stopFilters_settle keepForms mode

end

mutual

/-- Settled filters have not seen a token yet. -/
theorem Filter.fresh_settle (keepForms : Bool) (mode : String) :
    ∀ f : Filter, (f.settle keepForms mode).fresh = f.settle keepForms mode
  | .dispatch d => d.fresh_settle keepForms mode
  | .pass | .lowercase | .strip => rfl
  | .charset _ | .stop _ | .stem _ | .report _ => rfl

/-- Neither have settled dispatching filters. -/
theorem Dispatch.fresh_settle (keepForms : Bool) (mode : String) :
    ∀ d : Dispatch, (d.settle keepForms mode).fresh = d.settle keepForms mode
  | .otherwise f => by
    rw [Dispatch.settle]
    split
    · rfl
    · exact f.fresh_settle keepForms mode
  | .mode m f rest => by
    rw [Dispatch.settle]
    split
    · split
      · rfl
      · exact f.fresh_settle keepForms mode
    · exact rest.fresh_settle keepForms mode

end

namespace Pipeline

/-- The stop filters among the workers of an analysis are those that its tokens pass: keeping word
forms leaves out no stop filter. -/
theorem stopFilters_workers (p : Pipeline) (o : Options) :
    (p.workers o).flatMap Worker.stopFilters = p.stopFilters o.mode := by
  unfold workers activeFilters stopFilters
  rw [List.flatMap_map]
  induction p.filters with
  | nil => rfl
  | cons f rest ih =>
    rw [List.filter_cons, List.flatMap_cons]
    split
    · rw [List.flatMap_cons, ih, f.stopFilters_settle]
    · next hskip =>
      have hmorph : f.isMorph = true := by
        rw [Bool.not_eq_true, Bool.not_eq_false'] at hskip
        exact (Bool.and_eq_true_iff.mp hskip).2
      rw [ih, Filter.stopFilters_of_isMorph hmorph, List.nil_append]

/-- The stem filters among the workers of an analysis are stem filters of the pipeline. -/
theorem stemFilters_workers (p : Pipeline) (o : Options) :
    (p.workers o).flatMap Worker.stemFilters ⊆ p.stemFilters := by
  intro g hg
  obtain ⟨k, hk, hg⟩ := List.mem_flatMap.mp hg
  obtain ⟨f, hf, rfl⟩ := List.mem_map.mp hk
  exact List.mem_flatMap.mpr
    ⟨f, (List.mem_filter.mp hf).1, f.stemFilters_settle o.keepForms o.mode hg⟩

/-- No worker of an analysis drops tokens because they are marked already. -/
theorem ne_unstopped_of_mem_workers {p : Pipeline} {o : Options} {k : Worker}
    (hk : k ∈ p.workers o) : k ≠ .unstopped := by
  obtain ⟨f, -, rfl⟩ := List.mem_map.mp hk
  exact f.settle_ne_unstopped o.keepForms o.mode

/-- Before the first token no stop filter has given a position. -/
theorem fresh_of_mem_workers {p : Pipeline} {o : Options} {k : Worker} (hk : k ∈ p.workers o) :
    k.fresh = k := by
  obtain ⟨f, -, rfl⟩ := List.mem_map.mp hk
  exact f.fresh_settle o.keepForms o.mode

end Pipeline

end TextAnalysis
