import TextAnalysis.Chain
import TextAnalysis.Proofs.Sameness
import TextAnalysis.Proofs.Session
import TextAnalysis.Proofs.Stopping

/-!
# Same pipelines behave alike

What a filter does to a token depends on its settings alone: a stem filter reads its cache, but in a
sound workspace the cache holds the stems that the stemmer computes. So two filters that are the same
do the same to a token, each in a workspace of its own, and stay the same. This goes from one worker
(`Worker.result_step`) to all filters (`result_passThrough`) and to the tokens of a stream
(`tokensFrom_of_settings_eq`).

Stages that are appended to pipelines are named and ordered by their settings as well, so same
stages behind same pipelines build same pipelines or fail alike.

Main statement: `same_pipelines_are_interchangeable`.
-/

set_option autoImplicit false

namespace TextAnalysis

/-! ## Settings at work -/

/-- What a worker is, without the name of its stemmer and the cache it uses. -/
def Worker.settings : Worker → Worker
  | stem f => stem f.settings
  | k => k

/-- What a filter of a stream is, without names of stemmers and caches. -/
def Running.settings : Running → Running
  | waiting keepForms d => waiting keepForms d.settings
  | working k => working k.settings

/-- The settings of a filter tell whether it changes word forms. -/
theorem Filter.isMorph_settings (f : Filter) : f.settings.isMorph = f.isMorph := by
  cases f <;> rfl

mutual

/-- The settings of a filter at work are those of the filter, at work, -/
theorem Filter.settle_settings (keepForms : Bool) (mode : String) :
    ∀ f : Filter, f.settings.settle keepForms mode = (f.settle keepForms mode).settings
  | .dispatch d => d.settle_settings keepForms mode
  | .pass | .lowercase | .strip => rfl
  | .charset _ | .stop _ | .stem _ | .report _ => rfl

/-- and so for a dispatching filter. -/
theorem Dispatch.settle_settings (keepForms : Bool) (mode : String) :
    ∀ d : Dispatch, d.settings.settle keepForms mode = (d.settle keepForms mode).settings
  | .otherwise f => by
    rw [Dispatch.settings, Dispatch.settle, Dispatch.settle, f.isMorph_settings,
      f.settle_settings keepForms mode]
    split <;> rfl
  | .mode m f rest => by
    rw [Dispatch.settings, Dispatch.settle, Dispatch.settle, f.isMorph_settings,
      f.settle_settings keepForms mode, rest.settle_settings keepForms mode]
    split
    · split <;> rfl
    · rfl

end

namespace Running

/-- On a stream as well, the settings of the work are the work of the settings, -/
theorem settings_worker (mode : String) (r : Running) :
    r.settings.worker mode = (r.worker mode).settings := by
  cases r with
  | waiting keepForms d => exact d.settle_settings keepForms mode
  | working k => rfl

/-- and a filter is put on a stream as its settings are. -/
theorem settings_ofFilter (keepForms : Bool) (f : Filter) :
    (ofFilter keepForms f).settings = ofFilter keepForms f.settings := by
  cases f <;> rfl

end Running

/-- The name of a stemming function does not matter to the stem. -/
theorem Workspace.computeStem_settings (w : Workspace) (s : Stemmer) :
    w.computeStem s.settings = w.computeStem s := by
  cases s <;> rfl

/-- What becomes of a token and of the settings of what it passes, apart from the workspace. -/
def Passed.result {α β : Type} (settings : α → β) (p : Passed α) : β × Token × Bool :=
  (settings p.filter, p.token, p.kept)

/-- Passing has the same result where the filters have the same settings and the token has the same
fate. -/
theorem Passed.result_eq_iff {α β : Type} {settings : α → β} {p q : Passed α} :
    p.result settings = q.result settings ↔
      settings p.filter = settings q.filter ∧ p.token = q.token ∧ p.kept = q.kept := by
  simp only [result, Prod.mk.injEq]

section Steps

open Workspace (Sound)

variable {stemmers : List (String → String)} {owned owned' : List StemFilter} {v w : Workspace}

namespace Worker

/-- Workers with the same settings are equal, unless they are stem filters. -/
theorem cases_of_settings_eq {k l : Worker} (h : k.settings = l.settings) :
    (k = l ∧ k.stemFilters = []) ∨ ∃ f g, k = stem f ∧ l = stem g ∧ f.settings = g.settings := by
  cases k with
  | stem f =>
    cases l with
    | stem g => exact .inr ⟨f, g, rfl, rfl, by injection h⟩
    | _ => cases h
  | _ =>
    cases l with
    | stem g => cases h
    | _ => exact .inl ⟨h, rfl⟩

/-- What a worker that is no stem filter does is the same in every workspace. -/
theorem result_step_of_no_stem {k : Worker} (h : k.stemFilters = []) (v w : Workspace) (t : Token) :
    (k.step v t).result settings = (k.step w t).result settings := by
  cases k with
  | stem f => cases h
  | report r => rw [step_report, step_report]; rfl
  | _ => rfl

/-- Workers with the same settings do the same to a token where the caches are sound. -/
theorem result_step (hv : v.Sound stemmers owned) (hw : w.Sound stemmers owned') {k l : Worker}
    (h : k.settings = l.settings) (hk : k.stemFilters ⊆ owned) (hl : l.stemFilters ⊆ owned')
    (t : Token) : (k.step v t).result settings = (l.step w t).result settings := by
  rcases cases_of_settings_eq h with ⟨rfl, hnone⟩ | ⟨f, g, rfl, rfl, hsettings⟩
  · exact result_step_of_no_stem hnone v w t
  · have hstemmer : f.stemmer.settings = g.stemmer.settings := congrArg StemFilter.stemmer hsettings
    have hignored : f.ignored = g.ignored := (congrArg StemFilter.ignored hsettings :)
    cases hleft : t.stopped || g.ignored.contains t.text with
    | true =>
      rw [step_stem_of_ignored (hignored ▸ hleft), step_stem_of_ignored hleft]
      exact Passed.result_eq_iff.mpr ⟨h, rfl, rfl⟩
    | false =>
      -- Both caches hold the stems that the stemmers compute, and the stemmers are one.
      have hstem : (v.stem f t.text).1 = (w.stem g t.text).1 := by
        rw [hv.stem_fst (hk (List.mem_singleton_self f)), hw.stem_fst (hl (List.mem_singleton_self g)),
          ← v.computeStem_settings, ← w.computeStem_settings, hstemmer,
          Workspace.computeStem_congr (hv.stemmers_eq.trans hw.stemmers_eq.symm)]
      rw [step_stem_of_not_ignored (hignored ▸ hleft), step_stem_of_not_ignored hleft, hstem]
      exact Passed.result_eq_iff.mpr ⟨h, rfl, rfl⟩

end Worker

/-- So do filters on a stream. -/
theorem Running.result_step (hv : v.Sound stemmers owned) (hw : w.Sound stemmers owned')
    {r q : Running} (h : r.settings = q.settings) (hr : r.stemFilters ⊆ owned)
    (hq : q.stemFilters ⊆ owned') (t : Token) :
    (r.step v t).result settings = (q.step w t).result settings := by
  have hworker : (r.worker t.mode).settings = (q.worker t.mode).settings := by
    rw [← settings_worker, ← settings_worker, h]
  have hstep := Worker.result_step hv hw hworker (List.Subset.trans (r.stemFilters_worker _) hr)
    (List.Subset.trans (q.stemFilters_worker _) hq) t
  obtain ⟨hfilter, htoken, hkept⟩ := Passed.result_eq_iff.mp hstep
  exact Passed.result_eq_iff.mpr ⟨congrArg working hfilter, htoken, hkept⟩

/-- Filters with the same settings do the same to a token, and keep the same settings. -/
theorem result_passThrough (hv : v.Sound stemmers owned) (hw : w.Sound stemmers owned')
    {rs qs : List Running} (h : rs.map Running.settings = qs.map Running.settings)
    (hrs : rs.flatMap Running.stemFilters ⊆ owned) (hqs : qs.flatMap Running.stemFilters ⊆ owned')
    (t : Token) :
    (passThrough v t rs).result (List.map Running.settings) =
      (passThrough w t qs).result (List.map Running.settings) := by
  -- A step may store a stem, but either workspace stays sound for the stem filters it is used with.
  induction rs generalizing v w t qs with
  | nil =>
    obtain rfl : qs = [] := by simpa using h.symm
    rfl
  | cons r rs ih =>
    obtain ⟨q, qs, rfl⟩ : ∃ q qs', qs = q :: qs' := by
      cases qs with
      | nil => simp at h
      | cons q qs => exact ⟨q, qs, rfl⟩
    obtain ⟨hhead, htail⟩ := List.cons.inj h
    rw [List.flatMap_cons, List.append_subset] at hrs hqs
    have hstep := Running.result_step hv hw hhead hrs.1 hqs.1 t
    obtain ⟨hfilter, htoken, hkept⟩ := Passed.result_eq_iff.mp hstep
    have hv' := Running.lasting_step (Sound.lasting stemmers owned) hv hrs.1 t
    have hw' := Running.lasting_step (Sound.lasting stemmers owned') hw hqs.1 t
    have hrest := ih hv' hw' htail hrs.2 hqs.2 (r.step v t).token
    obtain ⟨hfilters, htoken', hkept'⟩ := Passed.result_eq_iff.mp hrest
    rw [passThrough, passThrough]
    dsimp only
    rw [← hkept, ← htoken]
    split
    · refine Passed.result_eq_iff.mpr ⟨?_, htoken', hkept'⟩
      rw [List.map_cons, List.map_cons, hfilter, hfilters]
    · refine Passed.result_eq_iff.mpr ⟨?_, rfl, rfl⟩
      rw [List.map_cons, List.map_cons, hfilter, htail]

/-- Filters with the same settings leave the same tokens. -/
theorem tokensFrom_of_settings_eq (hv : v.Sound stemmers owned) (hw : w.Sound stemmers owned')
    {rs qs : List Running} (h : rs.map Running.settings = qs.map Running.settings)
    (hrs : rs.flatMap Running.stemFilters ⊆ owned) (hqs : qs.flatMap Running.stemFilters ⊆ owned')
    (record : Token) (updates : List Update) :
    tokensFrom v record rs updates = tokensFrom w record qs updates := by
  induction updates generalizing v w record rs qs with
  | nil => rfl
  | cons u rest ih =>
    have hpass := result_passThrough hv hw h hrs hqs (u.apply record)
    obtain ⟨hfilters, htoken, hkept⟩ := Passed.result_eq_iff.mp hpass
    have hrest := ih (sound_passThrough hv (u.apply record) hrs)
      (sound_passThrough hw (u.apply record) hqs) hfilters
      (List.Subset.trans (stemFilters_passThrough v (u.apply record) rs) hrs)
      (List.Subset.trans (stemFilters_passThrough w (u.apply record) qs) hqs)
      (passThrough v (u.apply record) rs).token
    rw [tokensFrom, tokensFrom, ← hkept, hrest, ← htoken]

end Steps

/-! ## Pipelines -/

namespace Pipeline

/-- The failure of an analysis, or all its tokens. -/
def outcome (p : Pipeline) (w : Workspace) (o : Options) (input : Input) :
    Except Failure (List Token) :=
  (p.analyze o input).map fun s => (s.drain w).1

/-- The outcome of an analysis is the drained stream of its text, or the failure to decode it. -/
theorem outcome_eq (p : Pipeline) (w : Workspace) (o : Options) (input : Input) :
    p.outcome w o input = input.decode.map fun text => ((p.streamOfText o text).drain w).1 := by
  unfold outcome analyze
  cases input.decode <;> rfl

variable {p q : Pipeline}

/-- Same pipelines start with the same pieces of a text and with filters that have the same
settings. -/
theorem streamOfText_of_settings_eq (h : p.settings = q.settings) (o : Options) (text : String) :
    (p.streamOfText o text).record = (q.streamOfText o text).record ∧
      (p.streamOfText o text).pending = (q.streamOfText o text).pending ∧
      (p.streamOfText o text).filters.map Running.settings =
        (q.streamOfText o text).filters.map Running.settings := by
  obtain ⟨htokenizer, hfilters⟩ := settings_eq_iff.mp h
  have hactive (p : Pipeline) : ((p.activeFilters o).map (Running.ofFilter o.keepForms)).map
      Running.settings = ((p.filters.map Filter.settings).filter fun f =>
        !(o.keepForms && f.isMorph)).map (Running.ofFilter o.keepForms) := by
    simp only [activeFilters, List.filter_map, List.map_map, Function.comp_def,
      Filter.isMorph_settings, Running.settings_ofFilter]
  rw [streamOfText_eq, streamOfText_eq, htokenizer]
  refine ⟨rfl, rfl, ?_⟩
  rw [List.map_append, List.map_append, hactive, hactive, hfilters]

/-- Same pipelines give the same tokens or the same failure, each in a sound workspace with the same
stemming functions. -/
theorem outcome_of_settings_eq (h : p.settings = q.settings)
    {stemmers : List (String → String)} {owned owned' : List StemFilter} {v w : Workspace}
    (hv : v.Sound stemmers owned) (hw : w.Sound stemmers owned') (hp : p.stemFilters ⊆ owned)
    (hq : q.stemFilters ⊆ owned') (o : Options) (input : Input) :
    p.outcome v o input = q.outcome w o input := by
  rw [outcome_eq, outcome_eq]
  congr 1
  funext text
  obtain ⟨hrecord, hpending, hfilters⟩ := streamOfText_of_settings_eq h o text
  rw [Stream.drain_fst, Stream.drain_fst, Stream.tokens, Stream.tokens, hrecord, hpending]
  exact tokensFrom_of_settings_eq hv hw hfilters
    (List.Subset.trans (p.stemFilters_streamOfText o text) hp)
    (List.Subset.trans (q.stemFilters_streamOfText o text) hq) _ _

end Pipeline

/-! ## Building -/

/-- Both fail, and with the same failure, or both succeed, and their results are related. -/
def SameOutcome {α : Type} (R : α → α → Prop) : Except Failure α → Except Failure α → Prop
  | .ok a, .ok b => R a b
  | .error e, .error e' => e = e'
  | _, _ => False

/-- Builds of the same settings give pipelines that are the same. -/
theorem SameOutcome.of_map_settings {a b : Except Failure Pipeline}
    (h : a.map Pipeline.settings = b.map Pipeline.settings) :
    SameOutcome (fun p q => p.same q = true) a b := by
  cases a with
  | error e =>
    cases b with
    | error e' => exact Except.error.inj h
    | ok q => cases h
  | ok p =>
    cases b with
    | error e' => cases h
    | ok q => exact (p.same_iff q).mpr (Except.ok.inj h)

namespace Stage

/-- The settings of a stage tell its name, -/
theorem name_settings (s : Stage) : s.settings.name = s.name := by
  cases s with
  | tokenizer t => rfl
  | filter f => cases f <;> rfl

/-- whether it is a tokenizer, -/
theorem isTokenizer_settings (s : Stage) : s.settings.isTokenizer = s.isTokenizer := by
  cases s <;> rfl

/-- and, of several, all their names. -/
theorem map_name_settings (stages : List Stage) :
    (stages.map settings).map name = stages.map name := by
  simp only [List.map_map, Function.comp_def, name_settings]

end Stage

/-- The filters of stages have the settings of these stages. -/
theorem Pipeline.filtersOf?_settings (stages : List Stage) :
    filtersOf? (stages.map Stage.settings) = (filtersOf? stages).map (List.map Filter.settings) := by
  induction stages with
  | nil => rfl
  | cons s rest ih =>
    cases s with
    | tokenizer t => rfl
    | filter f =>
      simp only [List.map_cons, Stage.settings, filtersOf?, ih, Option.map_map, Function.comp_def]

/-- Whether stages make a pipeline, and which, is a matter of their settings. -/
theorem Pipeline.ofStages_of_settings_eq {ss ts : List Stage}
    (h : ss.map Stage.settings = ts.map Stage.settings) :
    (ofStages ss).map settings = (ofStages ts).map settings := by
  have hnames : ss.map Stage.name = ts.map Stage.name := by
    rw [← Stage.map_name_settings, h, Stage.map_name_settings]
  cases ss with
  | nil =>
    obtain rfl : ts = [] := by simpa using h.symm
    rfl
  | cons s ss =>
    cases ts with
    | nil => simp at h
    | cons t ts =>
      obtain ⟨hhead, htail⟩ := List.cons.inj h
      have hname : s.name = t.name := (List.cons.inj hnames).1
      have hrest : (filtersOf? ss).map (List.map Filter.settings) =
          (filtersOf? ts).map (List.map Filter.settings) := by
        rw [← filtersOf?_settings, htail, filtersOf?_settings]
      cases s with
      | filter f =>
        cases t with
        | tokenizer u => cases hhead
        | filter g =>
          have hfilter : f.name = g.name := hname
          simp only [ofStages, hnames, hfilter]
      | tokenizer t₀ =>
        cases t with
        | filter g => cases hhead
        | tokenizer u =>
          obtain rfl : t₀ = u := Stage.tokenizer.inj hhead
          simp only [ofStages, hnames]
          cases hss : filtersOf? ss with
          | none =>
            rw [hss] at hrest
            rw [Option.map_eq_none_iff.mp hrest.symm]
          | some fs =>
            rw [hss] at hrest
            obtain ⟨gs, hgs, hsettings⟩ := Option.map_eq_some_iff.mp hrest.symm
            rw [hgs]
            simp only [Except.map, settings, hsettings]

namespace Chain

/-- Two chains have stages with the same settings, and the same fault. -/
structure Alike (c d : Chain) : Prop where
  stages : c.stages.map Stage.settings = d.stages.map Stage.settings
  fault : c.fault = d.fault

/-- Settings decide whether stages are in order. -/
theorem orderFault?_of_settings_eq {ss ts : List Stage}
    (h : ss.map Stage.settings = ts.map Stage.settings) : orderFault? ss = orderFault? ts := by
  have hsettings (stages : List Stage) :
      orderFault? (stages.map Stage.settings) = orderFault? stages := by
    simp only [orderFault?, ← List.map_drop, List.any_map, Function.comp_def,
      Stage.isTokenizer_settings, Stage.map_name_settings]
  rw [← hsettings, h, hsettings]

namespace Alike

variable {c d c' d' : Chain}

/-- Chains of pipelines with the same settings are alike, -/
theorem ofPipeline {p q : Pipeline} (h : p.settings = q.settings) :
    (Chain.ofPipeline p).Alike (.ofPipeline q) where
  stages := by
    obtain ⟨htokenizer, hfilters⟩ := Pipeline.settings_eq_iff.mp h
    have hstages (p : Pipeline) : p.stages.map Stage.settings =
        .tokenizer p.tokenizer :: (p.filters.map Filter.settings).map .filter := by
      simp only [Pipeline.stages, List.map_cons, List.map_map, Stage.settings, Function.comp_def]
    rw [Chain.ofPipeline, Chain.ofPipeline, hstages, hstages, htokenizer, hfilters]
  fault := rfl

/-- chains of stages with the same settings are, -/
theorem ofStage {s t : Stage} (h : s.settings = t.settings) : (Chain.ofStage s).Alike (.ofStage t) where
  stages := by rw [Chain.ofStage, Chain.ofStage, List.map_singleton, List.map_singleton, h]
  fault := rfl

/-- chains that are joined from chains that are alike, -/
theorem andThen (h : c.Alike d) (h' : c'.Alike d') : (c.andThen c').Alike (d.andThen d') := by
  have hstages : (c.stages ++ c'.stages).map Stage.settings =
      (d.stages ++ d'.stages).map Stage.settings := by
    rw [List.map_append, List.map_append, h.stages, h'.stages]
  refine ⟨hstages, ?_⟩
  simp only [Chain.andThen, h.fault, h'.fault, orderFault?_of_settings_eq hstages]

/-- and they build pipelines that are the same, or fail alike. -/
theorem build (h : c.Alike d) : SameOutcome (fun p q => p.same q = true) c.build d.build := by
  refine .of_map_settings ?_
  unfold Chain.build
  rw [h.fault]
  cases d.fault with
  | some fault => rfl
  | none => exact Pipeline.ofStages_of_settings_eq h.stages

end Alike

/-- A chain with more stages appended, one by one. -/
def append (c : Chain) (stages : List Stage) : Chain :=
  stages.foldl (fun c s => c.andThen (.ofStage s)) c

/-- Chains stay alike when the same stages are appended. -/
theorem Alike.append {c d : Chain} (h : c.Alike d) {ss ts : List Stage}
    (hstages : List.Forall₂ (fun s t => s.same t = true) ss ts) :
    (c.append ss).Alike (d.append ts) := by
  induction hstages generalizing c d with
  | nil => exact h
  | cons hst _ ih => exact ih (h.andThen (.ofStage ((Stage.same_iff _ _).mp hst)))

end Chain

/-- **Same pipelines are interchangeable.** Sameness of stages and of pipelines is an equivalence; it
leaves out the names of pipelines and which caches they use, and compares dispatching filters by
looking up the modes of one in the other. Same pipelines whose stem filters come from any sessions,
whatever has been done in these, fail with the same failure or give the same tokens, for every input
and all options. And same stages appended to them, one or many, give same pipelines, or fail with the
same failure. -/
theorem same_pipelines_are_interchangeable :
    (Equivalence fun s t : Stage => s.same t = true) ∧
    (Equivalence fun p q : Pipeline => p.same q = true) ∧
    (∀ (p : Pipeline) (name : String) (σ : Nat → Nat),
      ((p.withName name).recached σ).same p = true) ∧
    (∀ d e : Dispatch, d.Ordered → e.Ordered →
      (d.same e = true ↔
        d.fallback.same e.fallback = true ∧ d.entries.length = e.entries.length ∧
          ∀ m f, (m, f) ∈ d.entries → ∃ g, (m, g) ∈ e.entries ∧ f.same g = true)) ∧
    ∀ p q : Pipeline, p.same q = true →
      (∀ (stemmers : List (String → String)) (first second : List Action),
        let s := (Session.new stemmers).run first
        let t := (Session.new stemmers).run second
        p.stemFilters ⊆ s.filters → q.stemFilters ⊆ t.filters → ∀ (o : Options) (input : Input),
          p.outcome s.workspace o input = q.outcome t.workspace o input) ∧
      (∀ f g : Filter, f.same g = true → (p.addFilter f).same (q.addFilter g) = true) ∧
      ∀ ss ts : List Stage, List.Forall₂ (fun s t => s.same t = true) ss ts →
        SameOutcome (fun p q => p.same q = true) ((Chain.ofPipeline p).append ss).build
          ((Chain.ofPipeline q).append ts).build := by
  refine ⟨Stage.same_equivalence, Pipeline.same_equivalence, ?names, ?modes, ?alike⟩
  case names =>
    intro p name σ
    rw [Pipeline.same_iff, Pipeline.settings_recached]
    rfl
  case modes =>
    intro d e hd he
    exact Dispatch.same_iff_lookup hd he
  case alike =>
    intro p q h
    rw [Pipeline.same_iff] at h
    refine ⟨?tokens, ?added, ?appended⟩
    case tokens =>
      intro stemmers first second s t hp hq o input
      have hs := ((Session.Valid.new stemmers).run first).sound
      have ht := ((Session.Valid.new stemmers).run second).sound
      exact Pipeline.outcome_of_settings_eq h hs ht hp hq o input
    case added =>
      intro f g hfg
      obtain ⟨htokenizer, hfilters⟩ := Pipeline.settings_eq_iff.mp h
      rw [Filter.same_iff] at hfg
      refine (Pipeline.same_iff _ _).mpr (Pipeline.settings_eq_iff.mpr ⟨htokenizer, ?_⟩)
      simp only [Pipeline.addFilter, List.map_append, List.map_singleton, hfilters, hfg]
    case appended =>
      intro ss ts hstages
      exact ((Chain.Alike.ofPipeline h).append hstages).build

/-- Two pipelines with different names, whose modes have been set in different order and whose stem
filters have caches of their own, of which one has been used. -/
theorem same_hyphen_pipelines_are_interchangeable :
    let stemmers : List (String → String) := [fun word => word ++ "-"]
    let f : StemFilter := { stemmer := .custom "hyphen" 0, cache := 0 }
    let g : StemFilter := { stemmer := .custom "hyphen" 0, cache := 1 }
    let d := ((Dispatch.otherwise .pass).insert "a" (.stem f)).insert "b" .lowercase
    let e := ((Dispatch.otherwise .pass).insert "b" .lowercase).insert "a" (.stem g)
    let p : Pipeline := ⟨"first", .whole, [.dispatch d]⟩
    let q : Pipeline := ⟨"second", .whole, [.dispatch e]⟩
    let s := (Session.new stemmers).run [.make f.stemmer, .stem f "Fox"]
    let t := (Session.new stemmers).run [.make f.stemmer, .copy f]
    let o : Options := { mode := "a" }
    (d.Ordered ∧ e.Ordered ∧ p.same q = true) ∧
      (p.stemFilters ⊆ s.filters ∧ q.stemFilters ⊆ t.filters) ∧
      p.outcome s.workspace o (.text "Fox") = q.outcome t.workspace o (.text "Fox") ∧
      (p.outcome s.workspace o (.text "Fox")).map (List.map Token.text) = .ok ["Fox-"] := by
  intro stemmers f g d e p q s t o
  have hpass : (Dispatch.otherwise .pass).Ordered := Dispatch.ordered_otherwise .pass
  have hd : d.Ordered := Dispatch.ordered_insert _ _ (Dispatch.ordered_insert _ _ hpass)
  have he : e.Ordered := Dispatch.ordered_insert _ _ (Dispatch.ordered_insert _ _ hpass)
  obtain ⟨-, -, -, -, hcongr⟩ := same_pipelines_are_interchangeable
  have hsame : p.same q = true := by decide
  have hp : p.stemFilters ⊆ s.filters := by decide
  have hq : q.stemFilters ⊆ t.filters := by decide
  have htokens := (hcongr p q hsame).1 stemmers _ _ hp hq o (.text "Fox")
  exact ⟨⟨hd, he, hsame⟩, ⟨hp, hq⟩, htokens, by decide⟩

end TextAnalysis
