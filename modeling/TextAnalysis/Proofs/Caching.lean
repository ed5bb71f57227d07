import TextAnalysis.Proofs.Draining

/-!
# Caches and stems

A workspace is sound for stem filters when each of their caches belongs to one stemmer and holds
stems of that stemmer only. Looking up stems, storing them, emptying a full cache and cleaning keep
a workspace sound. In a sound workspace a stream does, step by step, what the stream without caches
does in any workspace with the same stemming functions.

All that a stream does to a workspace is to look up stems and to report, so a property that these
keep lasts over every step (`Stream.lasting_advance`); being sound is one.

Main statements: `Stream.sound_advance` and `Stream.advance_uncached`.
-/

set_option autoImplicit false

namespace TextAnalysis

/-! ## Stem filters and what remains without caches -/

mutual

/-- The stem filters that the filter may use. -/
def Filter.stemFilters : Filter → List StemFilter
  | .dispatch d => d.stemFilters
  | .stem f => [f]
  | _ => []

/-- The stem filters among the filters for modes and the fallback. -/
def Dispatch.stemFilters : Dispatch → List StemFilter
  | .otherwise f => f.stemFilters
  | .mode _ f rest => f.stemFilters ++ rest.stemFilters

end

mutual

/-- The filter with caching disabled. -/
def Filter.uncached : Filter → Filter
  | .dispatch d => .dispatch d.uncached
  | .stem f => .stem (f.withLimit none)
  | f => f

/-- A dispatching filter with the caches of its stem filters disabled. -/
def Dispatch.uncached : Dispatch → Dispatch
  | .otherwise f => .otherwise f.uncached
  | .mode m f rest => .mode m f.uncached rest.uncached

end

namespace Worker

/-- The stem filter of a worker, if it is one. -/
def stemFilters : Worker → List StemFilter
  | stem f => [f]
  | _ => []

/-- A worker with its cache disabled. -/
def uncached : Worker → Worker
  | stem f => .stem (f.withLimit none)
  | k => k

end Worker

namespace Running

/-- The stem filters of a filter of a stream, whether it is at work or waits for a token. -/
def stemFilters : Running → List StemFilter
  | waiting _ d => d.stemFilters
  | working k => k.stemFilters

/-- A filter of a stream with its caches disabled. -/
def uncached : Running → Running
  | waiting keepForms d => .waiting keepForms d.uncached
  | working k => .working k.uncached

end Running

namespace Stream

/-- The stem filters of a stream. -/
def stemFilters (s : Stream) : List StemFilter := s.filters.flatMap Running.stemFilters

/-- The stream with caching disabled. -/
def uncached (s : Stream) : Stream := { s with filters := s.filters.map Running.uncached }

end Stream

namespace Pipeline

/-- The stem filters of a pipeline. -/
def stemFilters (p : Pipeline) : List StemFilter := p.filters.flatMap Filter.stemFilters

/-- The pipeline with caching disabled. -/
def uncached (p : Pipeline) : Pipeline := { p with filters := p.filters.map Filter.uncached }

end Pipeline

/-- Without caches, a filter changes word forms exactly where it did. -/
theorem Filter.isMorph_uncached (f : Filter) : f.uncached.isMorph = f.isMorph := by
  cases f <;> rfl

mutual

/-- Settling a filter without caches gives the worker without caches, -/
theorem Filter.settle_uncached (keepForms : Bool) (mode : String) :
    ∀ f : Filter, f.uncached.settle keepForms mode = (f.settle keepForms mode).uncached
  | .dispatch d => d.settle_uncached keepForms mode
  | .pass | .lowercase | .strip => rfl
  | .charset _ | .stop _ | .stem _ | .report _ => rfl

/-- and so for a dispatching filter. -/
theorem Dispatch.settle_uncached (keepForms : Bool) (mode : String) :
    ∀ d : Dispatch, d.uncached.settle keepForms mode = (d.settle keepForms mode).uncached
  | .otherwise f => by
    rw [Dispatch.uncached, Dispatch.settle, Dispatch.settle, f.isMorph_uncached,
      f.settle_uncached keepForms mode]
    split <;> rfl
  | .mode m f rest => by
    rw [Dispatch.uncached, Dispatch.settle, Dispatch.settle, f.isMorph_uncached,
      f.settle_uncached keepForms mode, rest.settle_uncached keepForms mode]
    split
    · split <;> rfl
    · rfl

end

mutual

/-- A filter at work has no stem filters but those that it had, -/
theorem Filter.stemFilters_settle (keepForms : Bool) (mode : String) :
    ∀ f : Filter, (f.settle keepForms mode).stemFilters ⊆ f.stemFilters
  | .dispatch d => d.stemFilters_settle keepForms mode
  | .stem _ => List.Subset.refl _
  | .pass | .lowercase | .strip => List.nil_subset _
  | .charset _ | .stop _ | .report _ => List.nil_subset _

/-- and so for a dispatching filter. -/
theorem Dispatch.stemFilters_settle (keepForms : Bool) (mode : String) :
    ∀ d : Dispatch, (d.settle keepForms mode).stemFilters ⊆ d.stemFilters
  | .otherwise f => by
    rw [Dispatch.settle]
    split
    · exact List.nil_subset _
    · exact f.stemFilters_settle keepForms mode
  | .mode m f rest => by
    rw [Dispatch.settle]
    split
    · split
      · exact List.nil_subset _
      · exact List.Subset.trans (f.stemFilters_settle keepForms mode)
          (List.subset_append_left _ _)
    · exact List.Subset.trans (rest.stemFilters_settle keepForms mode)
        (List.subset_append_right _ _)

end

/-! ## What lookups and reports keep -/

/-- A property of workspaces that is kept by reports and by lookups of the given stem filters, which
is all that a stream does to a workspace. -/
structure Workspace.Lasting (filters : List StemFilter) (I : Workspace → Prop) : Prop where
  stem_snd : ∀ {w}, I w → ∀ f ∈ filters, ∀ word, I (w.stem f word).2
  report : ∀ {w}, I w → ∀ e, I (w.report e)

section Lasting

variable {owned : List StemFilter} {I : Workspace → Prop} {w : Workspace}

/-- A step leaves a worker its stem filter. -/
theorem Worker.stemFilters_step (k : Worker) (w : Workspace) (t : Token) :
    (k.step w t).filter.stemFilters = k.stemFilters := by
  cases k with
  | stem f =>
    unfold step
    dsimp only
    split <;> rfl
  | report r =>
    unfold step
    dsimp only
    split <;> rfl
  | pass | lowercase | strip | charset | stop | unstopped => rfl

/-- One step of a worker keeps what lasts for its stem filters. -/
theorem Worker.lasting_step (hI : Workspace.Lasting owned I) (h : I w) {k : Worker}
    (hk : k.stemFilters ⊆ owned) (t : Token) : I (k.step w t).workspace := by
  cases k with
  | stem f =>
    unfold step
    dsimp only
    split
    · exact h
    · exact hI.stem_snd h f (hk (List.mem_singleton_self f)) t.text
  | report r =>
    unfold step
    dsimp only
    split
    · exact hI.report h _
    · exact hI.report h _
  | pass | lowercase | strip | charset | stop | unstopped => exact h

namespace Running

/-- At work, a filter on a stream has no stem filters but its own, -/
theorem stemFilters_worker (mode : String) (r : Running) :
    (r.worker mode).stemFilters ⊆ r.stemFilters := by
  cases r with
  | waiting keepForms d => exact d.stemFilters_settle keepForms mode
  | working k => exact List.Subset.refl _

/-- and none but these after a step. -/
theorem stemFilters_step (r : Running) (w : Workspace) (t : Token) :
    (r.step w t).filter.stemFilters ⊆ r.stemFilters := by
  change ((r.worker t.mode).step w t).filter.stemFilters ⊆ _
  rw [Worker.stemFilters_step]
  exact r.stemFilters_worker t.mode

/-- One step of a filter keeps what lasts for its stem filters. -/
theorem lasting_step (hI : Workspace.Lasting owned I) (h : I w) {r : Running}
    (hr : r.stemFilters ⊆ owned) (t : Token) : I (r.step w t).workspace :=
  Worker.lasting_step hI h (List.Subset.trans (r.stemFilters_worker t.mode) hr) t

end Running

/-- Passing a token leaves filters no stem filters but those that they had. -/
theorem stemFilters_passThrough (w : Workspace) (t : Token) (filters : List Running) :
    (passThrough w t filters).filter.flatMap Running.stemFilters ⊆
      filters.flatMap Running.stemFilters := by
  induction filters generalizing w t with
  | nil => exact List.Subset.refl _
  | cons r rest ih =>
    rw [passThrough]
    dsimp only
    split
    · exact List.append_subset.mpr
        ⟨List.subset_append_of_subset_left _ (r.stemFilters_step w t),
          List.subset_append_of_subset_right _ (ih _ _)⟩
    · exact List.append_subset.mpr
        ⟨List.subset_append_of_subset_left _ (r.stemFilters_step w t),
          List.subset_append_right _ _⟩

/-- Passing a token keeps what lasts for the stem filters it passes. -/
theorem lasting_passThrough (hI : Workspace.Lasting owned I) (h : I w) (t : Token)
    {filters : List Running} (hfilters : filters.flatMap Running.stemFilters ⊆ owned) :
    I (passThrough w t filters).workspace := by
  induction filters generalizing w t with
  | nil => exact h
  | cons r rest ih =>
    rw [List.flatMap_cons, List.append_subset] at hfilters
    have hstep := Running.lasting_step hI h hfilters.1 t
    rw [passThrough]
    dsimp only
    split
    · exact ih hstep _ hfilters.2
    · exact hstep

namespace Stream

/-- So does one step of a stream, and its stem filters stay among those that are owned. -/
theorem lasting_advanceFrom (hI : Workspace.Lasting owned I) (h : I w) (record : Token)
    {filters : List Running} (hfilters : filters.flatMap Running.stemFilters ⊆ owned)
    (updates : List Update) :
    I (advanceFrom w record filters updates).2.2 ∧
      (advanceFrom w record filters updates).2.1.stemFilters ⊆ owned := by
  induction updates generalizing w record filters with
  | nil => exact ⟨h, hfilters⟩
  | cons u rest ih =>
    have hpass := lasting_passThrough hI h (u.apply record) hfilters
    have hnext := List.Subset.trans (stemFilters_passThrough w (u.apply record) filters) hfilters
    rw [advanceFrom]
    split
    · exact ⟨hpass, hnext⟩
    · exact ih hpass _ hnext

/-- A step of a stream keeps what lasts, and the stream uses no other stem filters after it. -/
theorem lasting_advance (hI : Workspace.Lasting owned I) (h : I w) {s : Stream}
    (hs : s.stemFilters ⊆ owned) :
    I (s.advance w).2.2 ∧ (s.advance w).2.1.stemFilters ⊆ owned :=
  lasting_advanceFrom hI h s.record hs s.pending

end Stream

end Lasting

/-! ## Sound workspaces -/

namespace Workspace

variable {stemmers : List (String → String)} {filters : List StemFilter} {w : Workspace}

/-- The workspace has the given stemming functions, and its caches serve the given stem filters. -/
structure Sound (stemmers : List (String → String)) (filters : List StemFilter)
    (w : Workspace) : Prop where
  stemmers_eq : w.stemmers = stemmers
  /-- Stem filters share a cache only where they share a stemmer. -/
  one_stemmer : ∀ f ∈ filters, ∀ g ∈ filters, f.cache = g.cache → f.stemmer = g.stemmer
  /-- A cache holds stems of the stemmer of its filters. -/
  stems : ∀ f ∈ filters, ∀ word stem, (w.cache f.cache)[word]? = some stem →
    stem = w.computeStem f.stemmer word
  allocated : ∀ f ∈ filters, f.cache < w.nextCache
  unused : ∀ identity, w.nextCache ≤ identity → w.cache identity = ∅

/-- What is computed depends on the stemming functions alone. -/
theorem computeStem_congr {v w : Workspace} (h : v.stemmers = w.stemmers) :
    v.computeStem = w.computeStem := by
  funext s word
  unfold computeStem
  rw [h]

/-- A cache that is set is what it is set to, and the others stay. -/
theorem cache_setCache (w : Workspace) (i j : Nat) (held : StemCache) :
    (w.setCache i held).cache j = if i = j then held else w.cache j := by
  unfold cache setCache
  rw [Std.ExtTreeMap.getElem?_insert]
  simp only [Std.compare_eq_iff_eq]
  split <;> rfl

/-- What is found after storing a stem is that stem or has been there before. -/
theorem getElem?_store {held : StemCache} {limit : Nat} {word stem word' stem' : String}
    (h : (store held limit word stem)[word']? = some stem') :
    (word' = word ∧ stem' = stem) ∨ held[word']? = some stem' := by
  unfold store at h
  rw [Std.ExtTreeMap.getElem?_insert] at h
  split at h
  · next heq =>
    exact .inl ⟨(Std.compare_eq_iff_eq.mp heq).symm, (Option.some.inj h).symm⟩
  · split at h
    · simp at h
    · exact .inr h

namespace Sound

/-- Where nothing has been stemmed, the caches are sound. -/
theorem start (stemmers : List (String → String)) : Sound stemmers [] { stemmers := stemmers } where
  stemmers_eq := rfl
  one_stemmer := by simp
  stems := by simp
  allocated := by simp
  unused identity _ := by simp [cache]

/-- A cache may be replaced by one that holds stems of the stemmer of its filters. -/
theorem setCache (h : w.Sound stemmers filters) {i : Nat} {held : StemCache}
    (hunused : w.nextCache ≤ i → held = ∅)
    (hstems : ∀ f ∈ filters, f.cache = i → ∀ word stem, held[word]? = some stem →
      stem = w.computeStem f.stemmer word) :
    (w.setCache i held).Sound stemmers filters where
  stemmers_eq := h.stemmers_eq
  one_stemmer := h.one_stemmer
  stems f hf word stem hfound := by
    rw [cache_setCache] at hfound
    split at hfound
    · next heq => exact hstems f hf heq.symm word stem hfound
    · exact h.stems f hf word stem hfound
  allocated := h.allocated
  unused identity hle := by
    rw [cache_setCache]
    split
    · next heq => exact hunused (heq ▸ hle)
    · exact h.unused identity hle

/-- Reporting does not touch the caches. -/
theorem report (h : w.Sound stemmers filters) (e : Event) :
    (w.report e).Sound stemmers filters where
  stemmers_eq := h.stemmers_eq
  one_stemmer := h.one_stemmer
  stems := h.stems
  allocated := h.allocated
  unused := h.unused

/-- Emptied caches hold no wrong answer. -/
theorem cleanAll (h : w.Sound stemmers filters) (identities : List Nat) :
    (w.cleanAll identities).Sound stemmers filters := by
  unfold Workspace.cleanAll
  induction identities generalizing w with
  | nil => exact h
  | cons i rest ih =>
    rw [List.foldl_cons]
    exact ih (h.setCache (fun _ => rfl) (by simp))

/-- A cache does not change a stem. -/
theorem stem_fst (h : w.Sound stemmers filters) {f : StemFilter} (hf : f ∈ filters)
    (word : String) : (w.stem f word).1 = w.computeStem f.stemmer word :=
  w.stem_fst f word (h.stems f hf word)

/-- Looking up a stem keeps the workspace sound, whether it was there, has been stored, or has been
stored in place of all others. -/
theorem stem_snd (h : w.Sound stemmers filters) {f : StemFilter} (hf : f ∈ filters)
    (word : String) : (w.stem f word).2.Sound stemmers filters := by
  unfold Workspace.stem
  split
  · exact h
  · next limit hlimit =>
    split
    · exact h
    · refine h.setCache ?_ ?_
      · intro hle
        have hlt := h.allocated f hf
        omega
      · intro g hg hcache word' stem' hfound
        rw [h.one_stemmer g hg f hf hcache]
        rcases getElem?_store hfound with ⟨rfl, rfl⟩ | hold
        · rfl
        · exact h.stems f hf word' stem' hold

/-- Soundness lasts over everything that is done with stem filters. -/
theorem lasting (stemmers : List (String → String)) (filters : List StemFilter) :
    Lasting filters (Sound stemmers filters) where
  stem_snd h _ hf word := h.stem_snd hf word
  report h e := h.report e

/-- A filter with a cache of its own, which is empty, may be any. -/
theorem allocate (h : w.Sound stemmers filters) {f : StemFilter} (hf : f.cache = w.nextCache) :
    Sound stemmers (f :: filters) { w with nextCache := w.nextCache + 1 } where
  stemmers_eq := h.stemmers_eq
  one_stemmer := by
    have hne : ∀ g ∈ filters, g.cache ≠ f.cache := by
      intro g hg heq
      have hlt := h.allocated g hg
      omega
    intro a ha b hb heq
    rcases List.mem_cons.mp ha with rfl | hold <;> rcases List.mem_cons.mp hb with rfl | hold'
    · rfl
    · exact absurd heq.symm (hne b hold')
    · exact absurd heq (hne a hold)
    · exact h.one_stemmer a hold b hold' heq
  stems g hg word stem hfound := by
    rcases List.mem_cons.mp hg with rfl | hg
    · have hempty : w.cache g.cache = ∅ := h.unused _ (Nat.le_of_eq hf.symm)
      change (w.cache g.cache)[word]? = some stem at hfound
      rw [hempty] at hfound
      simp at hfound
    · exact h.stems g hg word stem hfound
  allocated g hg := by
    rcases List.mem_cons.mp hg with rfl | hg
    · exact hf ▸ Nat.lt_succ_self _
    · exact Nat.lt_succ_of_lt (h.allocated g hg)
  unused identity hle := h.unused identity (Nat.le_of_succ_le hle)

/-- Other settings of a filter go with its cache, since its stemmer stays. -/
theorem adjust (h : w.Sound stemmers filters) {f g : StemFilter} (hf : f ∈ filters)
    (hcache : g.cache = f.cache) (hstemmer : g.stemmer = f.stemmer) :
    w.Sound stemmers (g :: filters) where
  stemmers_eq := h.stemmers_eq
  one_stemmer := by
    intro a ha b hb heq
    rcases List.mem_cons.mp ha with rfl | hold <;> rcases List.mem_cons.mp hb with rfl | hold'
    · rfl
    · exact hstemmer.trans (h.one_stemmer f hf b hold' (hcache ▸ heq))
    · exact (h.one_stemmer a hold f hf (hcache ▸ heq)).trans hstemmer.symm
    · exact h.one_stemmer a hold b hold' heq
  stems a ha word stem hfound := by
    rcases List.mem_cons.mp ha with rfl | ha
    · rw [hstemmer]
      exact h.stems f hf word stem (hcache ▸ hfound)
    · exact h.stems a ha word stem hfound
  allocated a ha := by
    rcases List.mem_cons.mp ha with rfl | ha
    · exact hcache ▸ h.allocated f hf
    · exact h.allocated a ha
  unused := h.unused

end Sound

end Workspace

/-! ## Steps in a sound workspace -/

section Steps

variable {stemmers : List (String → String)} {owned : List StemFilter} {v w : Workspace}

namespace Worker

/-- A worker without caches does the same to the token and stays the worker without caches. -/
theorem step_uncached (h : w.Sound stemmers owned) (hv : v.stemmers = stemmers) {k : Worker}
    (hk : k.stemFilters ⊆ owned) (t : Token) :
    ∃ v', v'.stemmers = stemmers ∧ k.uncached.step v t =
      ⟨v', (k.step w t).filter.uncached, (k.step w t).token, (k.step w t).kept⟩ := by
  cases k with
  | stem f =>
    refine ⟨v, hv, ?_⟩
    have hstem := h.stem_fst (hk (List.mem_singleton_self f)) t.text
    simp only [uncached, step, StemFilter.withLimit]
    split
    · rfl
    · rw [hstem, ← Workspace.computeStem_congr (hv.trans h.stemmers_eq.symm)]
      rfl
  | report r =>
    cases hsink : r.sink with
    | some sink =>
      refine ⟨v.report (.line sink t.describe), hv, ?_⟩
      simp only [uncached, step, hsink]
    | none =>
      refine ⟨v.report (.message .debug (some r.target) t.describe), hv, ?_⟩
      simp only [uncached, step, hsink]
  | pass | lowercase | strip | charset | stop | unstopped => exact ⟨v, hv, rfl⟩

end Worker

namespace Running

/-- Without caches, a filter comes to the same work without caches. -/
theorem worker_uncached (mode : String) (r : Running) :
    r.uncached.worker mode = (r.worker mode).uncached := by
  cases r with
  | waiting keepForms d => exact d.settle_uncached keepForms mode
  | working k => rfl

/-- A filter without caches does the same to the token and stays the filter without caches. -/
theorem step_uncached (h : w.Sound stemmers owned) (hv : v.stemmers = stemmers) {r : Running}
    (hr : r.stemFilters ⊆ owned) (t : Token) :
    ∃ v', v'.stemmers = stemmers ∧ r.uncached.step v t =
      ⟨v', (r.step w t).filter.uncached, (r.step w t).token, (r.step w t).kept⟩ := by
  obtain ⟨v', hv', hstep⟩ :=
    Worker.step_uncached h hv (List.Subset.trans (r.stemFilters_worker t.mode) hr) t
  refine ⟨v', hv', ?_⟩
  unfold step
  rw [worker_uncached, hstep]
  rfl

end Running

/-- Filters keep the workspace sound. -/
theorem sound_passThrough (h : w.Sound stemmers owned) (t : Token) {filters : List Running}
    (hfilters : filters.flatMap Running.stemFilters ⊆ owned) :
    (passThrough w t filters).workspace.Sound stemmers owned :=
  lasting_passThrough (Workspace.Sound.lasting stemmers owned) h t hfilters

/-- Filters without caches do the same to the token and stay the filters without caches. -/
theorem passThrough_uncached (h : w.Sound stemmers owned) (hv : v.stemmers = stemmers) (t : Token)
    {filters : List Running} (hfilters : filters.flatMap Running.stemFilters ⊆ owned) :
    ∃ v', v'.stemmers = stemmers ∧ passThrough v t (filters.map Running.uncached) =
      ⟨v', (passThrough w t filters).filter.map Running.uncached,
        (passThrough w t filters).token, (passThrough w t filters).kept⟩ := by
  induction filters generalizing v w t with
  | nil => exact ⟨v, hv, rfl⟩
  | cons r rest ih =>
    rw [List.flatMap_cons, List.append_subset] at hfilters
    obtain ⟨v₁, hv₁, hstep⟩ := Running.step_uncached h hv hfilters.1 t
    rw [List.map_cons, passThrough, passThrough, hstep]
    dsimp only
    split
    · have hstep' := Running.lasting_step (Workspace.Sound.lasting stemmers owned) h hfilters.1 t
      obtain ⟨v₂, hv₂, hrest⟩ := ih hstep' hv₁ _ hfilters.2
      refine ⟨v₂, hv₂, ?_⟩
      rw [hrest]
      rfl
    · exact ⟨v₁, hv₁, rfl⟩

namespace Stream

/-- A step of a stream without caches in a workspace of its own is that of the stream with them. -/
theorem advanceFrom_uncached (h : w.Sound stemmers owned) (hv : v.stemmers = stemmers)
    (record : Token) {filters : List Running}
    (hfilters : filters.flatMap Running.stemFilters ⊆ owned) (updates : List Update) :
    ∃ v', v'.stemmers = stemmers ∧
      advanceFrom v record (filters.map Running.uncached) updates =
        ((advanceFrom w record filters updates).1,
          (advanceFrom w record filters updates).2.1.uncached, v') := by
  induction updates generalizing v w record filters with
  | nil => exact ⟨v, hv, rfl⟩
  | cons u rest ih =>
    obtain ⟨v₁, hv₁, hpass⟩ := passThrough_uncached h hv (u.apply record) hfilters
    rw [advanceFrom, advanceFrom, hpass]
    split
    · exact ⟨v₁, hv₁, rfl⟩
    · exact ih (sound_passThrough h (u.apply record) hfilters) hv₁ _
        (List.Subset.trans (stemFilters_passThrough w (u.apply record) filters) hfilters)

/-- A step of a stream keeps the workspace sound, and the stream uses no other stem filters after
it. -/
theorem sound_advance (h : w.Sound stemmers owned) {s : Stream} (hs : s.stemFilters ⊆ owned) :
    (s.advance w).2.2.Sound stemmers owned ∧ (s.advance w).2.1.stemFilters ⊆ owned :=
  lasting_advance (Workspace.Sound.lasting stemmers owned) h hs

/-- **Caches do not show in one step.** The stream without caches, in any workspace with the same
stemming functions, has a token where the stream has one, and the same, and becomes the stream
without caches. -/
theorem advance_uncached (h : w.Sound stemmers owned) (hv : v.stemmers = stemmers) {s : Stream}
    (hs : s.stemFilters ⊆ owned) :
    ∃ v', v'.stemmers = stemmers ∧
      s.uncached.advance v = ((s.advance w).1, (s.advance w).2.1.uncached, v') :=
  advanceFrom_uncached h hv s.record hs s.pending

end Stream

end Steps

/-! ## Streams of pipelines -/

/-- A filter that is put on a stream without caches is the one with them, without these. -/
theorem Running.ofFilter_uncached (keepForms : Bool) (f : Filter) :
    Running.ofFilter keepForms f.uncached = (Running.ofFilter keepForms f).uncached := by
  cases f <;> rfl

/-- A filter on a stream has the stem filters that it was made of. -/
theorem Running.stemFilters_ofFilter (keepForms : Bool) (f : Filter) :
    (Running.ofFilter keepForms f).stemFilters = f.stemFilters := by
  cases f <;> rfl

namespace Pipeline

/-- The stream of a pipeline without caches is its stream without caches. -/
theorem streamOfText_uncached (p : Pipeline) (o : Options) (text : String) :
    p.uncached.streamOfText o text = (p.streamOfText o text).uncached := by
  have hactive : p.uncached.activeFilters o = (p.activeFilters o).map Filter.uncached := by
    simp only [activeFilters, uncached, List.filter_map]
    congr 2
    funext f
    simp only [Function.comp_apply, f.isMorph_uncached]
  rw [streamOfText_eq, streamOfText_eq, hactive]
  simp only [uncached, Stream.uncached, (p.tokenizer.start_tokenize o text).1, List.nil_append,
    List.map_map]
  congr 2
  funext f
  exact Running.ofFilter_uncached o.keepForms f

/-- The stream of a pipeline uses no other stem filters. -/
theorem stemFilters_streamOfText (p : Pipeline) (o : Options) (text : String) :
    (p.streamOfText o text).stemFilters ⊆ p.stemFilters := by
  intro f hf
  rw [streamOfText_eq, Stream.stemFilters, (p.tokenizer.start_tokenize o text).1, List.nil_append,
    List.flatMap_map, List.mem_flatMap] at hf
  obtain ⟨g, hg, hfound⟩ := hf
  rw [Running.stemFilters_ofFilter] at hfound
  exact List.mem_flatMap.mpr ⟨g, (List.mem_filter.mp hg).1, hfound⟩

end Pipeline

end TextAnalysis
