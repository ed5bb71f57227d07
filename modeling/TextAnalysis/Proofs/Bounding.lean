import TextAnalysis.Proofs.Dispatching
import TextAnalysis.Proofs.Session
import TextAnalysis.Proofs.Stopping

/-!
# Bounded caches

A cache that is full is emptied before the next stem is stored, so it never holds more stems than its
stem filter allows, provided that the bound has been set before the cache was first used. Cleaning a
pipeline empties the caches of all its stem filters, those of modes that are never selected included.

The bound of one cache is kept by everything that streams do (`Workspace.lasting_size_le`), hence by
every action of a session (`Session.Within.step`), hence by every list of actions. Main statement:
`stem_caches_stay_bounded`.
-/

set_option autoImplicit false

namespace TextAnalysis

/-! ## Configuring before use -/

/-- The number of stems that the cache of the filter may hold. -/
def StemFilter.capacity (f : StemFilter) : Nat := f.limit.getD 0

/-- A filter that is given a limit holds as many stems as the limit says. -/
theorem StemFilter.capacity_withLimit (f : StemFilter) (limit : Option Nat) :
    (f.withLimit limit).capacity = limit.getD 0 := by
  cases limit with
  | none => rfl
  | some n =>
    rcases Nat.eq_zero_or_pos n with rfl | hpos
    · rfl
    · simp only [capacity, withLimit, Option.filter_some, hpos, decide_true, if_true]

/-- The stem filters that an action asks for stems, directly or through the stream that it opens. -/
def Action.uses : Action → List StemFilter
  | .start p _ _ => p.stemFilters
  | .stem f _ => [f]
  | _ => []

/-- The actions use the cache of the filter under its present bound only: no bound has been set after
the cache was used. -/
def StemFilter.ConfiguredBeforeUse (f : StemFilter) (actions : List Action) : Prop :=
  ∀ g ∈ actions.flatMap Action.uses, g.cache = f.cache → g.limit = f.limit

/-! ## One cache -/

namespace Workspace

variable {filters : List StemFilter} {limit : Option Nat} {i : Nat} {w : Workspace}

/-- A cache with room stays within it. -/
theorem size_store_le (held : StemCache) {n : Nat} (hn : 0 < n) (word stem : String) :
    (store held n word stem).size ≤ n := by
  unfold store
  split
  · have hsize : (∅ : StemCache).size = 0 := Std.ExtTreeMap.size_empty
    have hinsert := Std.ExtTreeMap.size_insert_le (t := (∅ : StemCache)) (k := word) (v := stem)
    omega
  · have hinsert := Std.ExtTreeMap.size_insert_le (t := held) (k := word) (v := stem)
    omega

/-- Looking up stems keeps the size of a cache within the bound of the filters that use it. -/
theorem size_stem_le (hlimit : limit ≠ some 0) {f : StemFilter}
    (hf : f.cache = i → f.limit = limit) (h : (w.cache i).size ≤ limit.getD 0) (word : String) :
    ((w.stem f word).2.cache i).size ≤ limit.getD 0 := by
  unfold stem
  split
  · exact h
  · next n hn =>
    split
    · exact h
    · rw [cache_setCache]
      split
      · next heq =>
        obtain rfl : some n = limit := hn.symm.trans (hf heq)
        have hpos : 0 < n := Nat.pos_of_ne_zero fun hzero => hlimit (congrArg some hzero)
        exact size_store_le _ hpos word _
      · exact h

/-- That a cache is bounded lasts over stemming and emptying. -/
theorem lasting_size_le (hlimit : limit ≠ some 0)
    (hfilters : ∀ f ∈ filters, f.cache = i → f.limit = limit) :
    Lasting filters fun w => (w.cache i).size ≤ limit.getD 0 where
  stem_snd h f hf word := size_stem_le hlimit (hfilters f hf) h word
  report h _ := h

/-- Emptying empties the caches that are named and no others. -/
theorem cache_cleanAll (w : Workspace) (identities : List Nat) (i : Nat) :
    (w.cleanAll identities).cache i = if i ∈ identities then ∅ else w.cache i := by
  unfold cleanAll
  induction identities generalizing w with
  | nil => simp
  | cons j rest ih =>
    rw [List.foldl_cons, ih, clean, cache_setCache]
    by_cases hrest : i ∈ rest
    · simp [hrest]
    · by_cases hij : j = i
      · simp [hij]
      · simp [hrest, hij, Ne.symm hij]

end Workspace

mutual

/-- The caches of a filter are those of its stem filters, whatever mode these are for. -/
theorem Filter.caches_eq : ∀ f : Filter, f.caches = f.stemFilters.map StemFilter.cache
  | .dispatch d => d.caches_eq
  | .stem _ => rfl
  | .pass | .lowercase | .strip => rfl
  | .charset _ | .stop _ | .report _ => rfl

/-- The caches of a dispatching filter are those of its stem filters. -/
theorem Dispatch.caches_eq : ∀ d : Dispatch, d.caches = d.stemFilters.map StemFilter.cache
  | .otherwise f => f.caches_eq
  | .mode _ f rest => by
    rw [Dispatch.caches, Dispatch.stemFilters, List.map_append, f.caches_eq, rest.caches_eq]

end

/-- The caches of a pipeline are those of its stem filters. -/
theorem Pipeline.caches_eq (p : Pipeline) : p.caches = p.stemFilters.map StemFilter.cache := by
  rw [caches, stages, stemFilters, List.flatMap_cons, List.flatMap_map, List.map_flatMap]
  simp only [Stage.caches, List.nil_append, Filter.caches_eq]

/-- Cleaning a pipeline empties the cache of every stem filter in it. -/
theorem Pipeline.cached_clean {p : Pipeline} {f : StemFilter} (hf : f ∈ p.stemFilters)
    (w : Workspace) : (p.clean w).cached f = 0 := by
  have hmem : f.cache ∈ p.caches := by
    rw [caches_eq]
    exact List.mem_map_of_mem hf
  rw [Workspace.cached, clean, Workspace.cache_cleanAll, if_pos hmem]
  exact Std.ExtTreeMap.size_empty

/-- Behind a stream whose next token is marked or to be ignored, a stem filter does nothing to that
token and leaves the workspace as the stream in front of it does. -/
theorem Stream.advance_through_stem_of_ignored {w : Workspace} {s : Stream} {f : StemFilter}
    (h : (s.advance w).1 = true)
    (hignored : ((s.advance w).2.1.record.stopped ||
      f.ignored.contains (s.advance w).2.1.record.text) = true) (keepForms : Bool) :
    (s.through keepForms (.stem f)).advance w =
      (true, (s.advance w).2.1.through keepForms (.stem f), (s.advance w).2.2) := by
  have hstep : (Running.working (.stem f)).step (s.advance w).2.2 (s.advance w).2.1.record =
      ⟨(s.advance w).2.2, .working (.stem f), (s.advance w).2.1.record, true⟩ := by
    simp only [Running.step, Running.worker, Worker.step_stem_of_ignored hignored]
  refine (Stream.advance_behind_of_eq_true (.working (.stem f)) h).trans ?_
  rw [hstep]
  rfl

/-! ## Sessions -/

/-- A step of a stream that uses a cache under its limit keeps the cache within that limit, and the
stream goes on to use it so. -/
theorem Reading.size_advance_le {limit : Option Nat} (hlimit : limit ≠ some 0) {i : Nat}
    {w : Workspace} (r : Reading)
    (hr : ∀ t, r.stream = some t → ∀ g ∈ t.stemFilters, g.cache = i → g.limit = limit)
    (h : (w.cache i).size ≤ limit.getD 0) :
    ((r.advance w).2.cache i).size ≤ limit.getD 0 ∧
      ∀ t, (r.advance w).1.stream = some t →
        ∀ g ∈ t.stemFilters, g.cache = i → g.limit = limit := by
  unfold advance
  cases hstream : r.stream with
  | none => exact ⟨h, by simp [hstream]⟩
  | some t =>
    have hlasting := Workspace.lasting_size_le hlimit (hr t hstream)
    obtain ⟨hsize, hnext⟩ := Stream.lasting_advance hlasting h (List.Subset.refl t.stemFilters)
    refine ⟨hsize, ?_⟩
    intro t' ht' g hg
    obtain rfl := Option.some.inj ht'
    exact hr t hstream g (hnext hg)

namespace Session

/-- The cache holds no more stems than the limit allows, and the streams that are open use it under
that limit. -/
structure Within (i : Nat) (limit : Option Nat) (s : Session) : Prop where
  size_le : (s.workspace.cache i).size ≤ limit.getD 0
  streams : ∀ r ∈ s.readings, ∀ t, r.stream = some t → ∀ g ∈ t.stemFilters,
    g.cache = i → g.limit = limit

namespace Within

variable {i : Nat} {limit : Option Nat} {s : Session}

/-- A new session is within every bound. -/
theorem new (stemmers : List (String → String)) (i : Nat) (limit : Option Nat) :
    (Session.new stemmers).Within i limit where
  size_le := by simp [Session.new, Workspace.cache]
  streams := by simp [Session.new]

/-- A session stays within a bound in a workspace that is within it, -/
theorem withWorkspace (h : s.Within i limit) {w : Workspace}
    (hw : (w.cache i).size ≤ limit.getD 0) : Within i limit { s with workspace := w } where
  size_le := hw
  streams := h.streams

/-- when caches are emptied, -/
theorem cleanAll (h : s.Within i limit) (identities : List Nat) :
    Within i limit { s with workspace := s.workspace.cleanAll identities } := by
  refine h.withWorkspace ?_
  rw [Workspace.cache_cleanAll]
  split
  · rw [Std.ExtTreeMap.size_empty]
    exact Nat.zero_le _
  · exact h.size_le

/-- when an analysis begins whose stem filters have this bound, -/
theorem start (h : s.Within i limit) {p : Pipeline}
    (hp : ∀ g ∈ p.stemFilters, g.cache = i → g.limit = limit) (o : Options) (input : Input) :
    (s.start p o input).Within i limit := by
  unfold Session.start Pipeline.analyze
  cases input.decode with
  | error e => exact h
  | ok text =>
    refine ⟨h.size_le, ?_⟩
    intro r hr t ht g hg
    rcases List.mem_append.mp hr with hold | hnew
    · exact h.streams r hold t ht g hg
    · obtain rfl := List.mem_singleton.mp hnew
      obtain rfl := Option.some.inj ht
      exact hp g (p.stemFilters_streamOfText o text hg)

/-- when a stream advances, -/
theorem advance (hlimit : limit ≠ some 0) (h : s.Within i limit) (index : Nat) :
    (s.advance index).Within i limit := by
  unfold Session.advance
  split
  · next r hr =>
    obtain ⟨hsize, hstream⟩ :=
      r.size_advance_le hlimit (h.streams r (List.mem_of_getElem? hr)) h.size_le
    refine ⟨hsize, ?_⟩
    intro q hq
    rcases List.mem_or_eq_of_mem_set hq with hold | rfl
    · exact h.streams q hold
    · exact hstream
  · exact h

/-- when a stream is dropped, -/
theorem drop (h : s.Within i limit) (index : Nat) :
    (s.step (.drop index)).Within i limit where
  size_le := h.size_le
  streams r hr := by
    obtain ⟨j, hj⟩ := List.getElem?_of_mem hr
    dsimp only [step] at hj
    rw [List.getElem?_modify] at hj
    obtain ⟨q, hq, rfl⟩ := Option.map_eq_some_iff.mp hj
    split
    · nofun
    · exact h.streams q (List.mem_of_getElem? hq)

/-- Every action keeps the cache within the limit, as long as it uses the cache under that limit. -/
theorem step (hlimit : limit ≠ some 0) (h : s.Within i limit) {a : Action}
    (ha : ∀ g ∈ a.uses, g.cache = i → g.limit = limit) : (s.step a).Within i limit := by
  cases a with
  | make stemmer => exact ⟨h.size_le, h.streams⟩
  | copy f =>
    dsimp only [Session.step]
    split
    · exact ⟨h.size_le, h.streams⟩
    · exact h
  | ignoring f words =>
    dsimp only [Session.step]
    split
    · exact ⟨h.size_le, h.streams⟩
    · exact h
  | bound f limit =>
    dsimp only [Session.step]
    split
    · exact ⟨h.size_le, h.streams⟩
    · exact h
  | start p o input =>
    dsimp only [Session.step]
    split
    · exact h.start ha o input
    · exact h
  | advance index => exact h.advance hlimit index
  | drop index => exact h.drop index
  | stem f word =>
    dsimp only [Session.step]
    split
    · have hf := ha f (List.mem_singleton_self f)
      exact ⟨Workspace.size_stem_le hlimit hf h.size_le word, h.streams⟩
    · exact h
  | clean p => exact h.cleanAll p.caches
  | cleanStage stage => exact h.cleanAll stage.caches

/-- and over any actions whose stem filters have this bound. -/
theorem run (hlimit : limit ≠ some 0) (h : s.Within i limit) {actions : List Action}
    (hactions : ∀ g ∈ actions.flatMap Action.uses, g.cache = i → g.limit = limit) :
    (s.run actions).Within i limit := by
  unfold Session.run
  induction actions generalizing s with
  | nil => exact h
  | cons a rest ih =>
    rw [List.flatMap_cons] at hactions
    exact ih (h.step hlimit fun g hg => hactions g (List.mem_append_left _ hg))
      fun g hg => hactions g (List.mem_append_right _ hg)

end Within

/-- A limit of no stems is kept as no limit: such a filter caches nothing. -/
theorem limit_ne_zero_step {s : Session} (h : ∀ f ∈ s.filters, f.limit ≠ some 0) (a : Action) :
    ∀ f ∈ (s.step a).filters, f.limit ≠ some 0 := by
  have hadd : ∀ made : StemFilter × Workspace, made.1.limit ≠ some 0 →
      ∀ f ∈ (s.add made).filters, f.limit ≠ some 0 := by
    intro made hmade f hf
    rcases List.mem_cons.mp hf with rfl | hold
    · exact hmade
    · exact h f hold
  cases a with
  | make stemmer => exact hadd _ (by simp [Workspace.stemFilter, defaultCacheSize])
  | copy g =>
    dsimp only [step]
    split
    · next hg => exact hadd _ (h g hg)
    · exact h
  | ignoring g words =>
    dsimp only [step]
    split
    · next hg => exact hadd _ (h g hg)
    · exact h
  | bound g limit =>
    dsimp only [step]
    split
    · refine hadd _ ?_
      intro hzero
      have hpos := (Option.filter_eq_some_iff.mp hzero).2
      simp at hpos
    · exact h
  | start p o input =>
    dsimp only [step, start]
    split
    · split <;> exact h
    · exact h
  | advance index =>
    dsimp only [step, advance]
    split <;> exact h
  | stem g word =>
    dsimp only [step]
    split <;> exact h
  | drop | clean | cleanStage => exact h

/-- Sessions only make stem filters that can hold a stem. -/
theorem limit_ne_zero_run {s : Session} (h : ∀ f ∈ s.filters, f.limit ≠ some 0)
    (actions : List Action) : ∀ f ∈ (s.run actions).filters, f.limit ≠ some 0 := by
  unfold run
  induction actions generalizing s with
  | nil => exact h
  | cons a rest ih => exact ih (limit_ne_zero_step h a)

end Session

/-- **Stem caches stay within their bounds, and cleaning empties them.** Whatever has been done in a
session, the cache of a stem filter that was configured before it was used holds at most as many
stems as the filter allows. That is the limit that was set, or none where caching was disabled. The
words in the cache are distinct, each with its stem, and tokens that are marked or to be ignored
pass the filter without a change. Cleaning a pipeline leaves nothing in the caches of its stem
filters. -/
theorem stem_caches_stay_bounded (stemmers : List (String → String)) (actions : List Action) :
    let s := (Session.new stemmers).run actions
    let w := s.workspace
    (∀ f ∈ s.filters,
      (f.ConfiguredBeforeUse actions → w.cached f ≤ f.capacity) ∧
      (w.cache f.cache).keys.Nodup ∧
      (∀ e ∈ (w.cache f.cache).toList,
        e.2 = Workspace.computeStem { stemmers := stemmers } f.stemmer e.1) ∧
      ∀ (source : Stream) (keepForms : Bool),
        (source.advance w).1 = true →
        ((source.advance w).2.1.record.stopped ||
          f.ignored.contains (source.advance w).2.1.record.text) = true →
        (source.through keepForms (.stem f)).advance w =
          (true, (source.advance w).2.1.through keepForms (.stem f), (source.advance w).2.2)) ∧
    (∀ p : Pipeline, ∀ f ∈ p.stemFilters, (s.step (.clean p)).workspace.cached f = 0) ∧
    ∀ (f : StemFilter) (limit : Option Nat), (f.withLimit limit).capacity = limit.getD 0 := by
  intro s w
  have hvalid : s.Valid stemmers := (Session.Valid.new stemmers).run actions
  have hlimits : ∀ f ∈ s.filters, f.limit ≠ some 0 :=
    Session.limit_ne_zero_run (by simp [Session.new]) actions
  refine ⟨?filters, fun p f hf => Pipeline.cached_clean hf w, StemFilter.capacity_withLimit⟩
  intro f hf
  refine ⟨?bound, Std.ExtTreeMap.nodup_keys, ?stems, ?ignored⟩
  case bound =>
    intro hconfigured
    have hstart := Session.Within.new stemmers f.cache f.limit
    exact (hstart.run (hlimits f hf) hconfigured).size_le
  case stems =>
    rintro ⟨word, stem⟩ hentry
    have hfound := Std.ExtTreeMap.mem_toList_iff_getElem?_eq_some.mp hentry
    have hstemmers : w.stemmers = Workspace.stemmers { stemmers := stemmers } :=
      hvalid.sound.stemmers_eq
    rw [← Workspace.computeStem_congr hstemmers]
    exact hvalid.sound.stems f hf word stem hfound
  case ignored =>
    intro source keepForms hfound hignored
    exact Stream.advance_through_stem_of_ignored hfound hignored keepForms

/-- A cache for one stem, which the second word flushes, in a filter that leaves one word alone. -/
theorem stem_caches_stay_bounded_by_one :
    let made : StemFilter := { stemmer := .custom "hyphen" 0, cache := 0 }
    let limited := made.withLimit (some 1)
    let f := limited.ignoring ["the"]
    let p : Pipeline :=
      ⟨"words", .charset (({} : CharMap).breakOn ' '), [.dispatch (.otherwise (.stem f))]⟩
    let actions : List Action :=
      [.make made.stemmer, .bound made (some 1), .ignoring limited ["the"],
        .start p {} (.text "alfa the bravo"), .advance 0, .advance 0, .advance 0]
    let s := (Session.new [fun word => word ++ "-"]).run actions
    let the := Stream.ofTokens [{ text := "the" }]
    f ∈ s.filters ∧ f.ConfiguredBeforeUse actions ∧ f ∈ p.stemFilters ∧
      (the.advance s.workspace).1 = true ∧
      ((the.advance s.workspace).2.1.record.stopped ||
        f.ignored.contains (the.advance s.workspace).2.1.record.text) = true ∧
      (s.workspace.cache f.cache).toList = [("bravo", "bravo-")] ∧
      s.workspace.cached f ≤ f.capacity ∧
      (the.through false (.stem f)).advance s.workspace =
        (true, (the.advance s.workspace).2.1.through false (.stem f),
          (the.advance s.workspace).2.2) ∧
      (s.step (.clean p)).workspace.cached f = 0 := by
  intro made limited f p actions s the
  have hf : f ∈ s.filters := by decide
  have hconfigured : f.ConfiguredBeforeUse actions := by
    intro g hg _
    obtain rfl : g = f := by simpa [actions, Action.uses, p, Pipeline.stemFilters,
      Filter.stemFilters, Dispatch.stemFilters] using hg
    rfl
  have hp : f ∈ p.stemFilters := List.mem_singleton_self f
  have hfound : (the.advance s.workspace).1 = true := rfl
  have hignored : ((the.advance s.workspace).2.1.record.stopped ||
      f.ignored.contains (the.advance s.workspace).2.1.record.text) = true := by decide
  have hcache : (s.workspace.cache f.cache).toList = [("bravo", "bravo-")] := by decide
  obtain ⟨hfilters, hclean, -⟩ := stem_caches_stay_bounded [fun word => word ++ "-"] actions
  obtain ⟨hbound, -, -, hpass⟩ := hfilters f hf
  exact ⟨hf, hconfigured, hp, hfound, hignored, hcache, hbound hconfigured,
    hpass the false hfound hignored, hclean p f hp⟩

end TextAnalysis
