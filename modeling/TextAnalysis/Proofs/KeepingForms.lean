import TextAnalysis.Proofs.Cutting
import TextAnalysis.Proofs.Session

/-!
# Keeping word forms

Under the option to keep word forms, a pipeline leaves out the stem filters behind its tokenizer,
and its dispatching filters, at any depth, pass over the stem filters that they select. What is left
is the pipeline that has a filter that passes every token in the place of every stem filter
(`Pipeline.withoutMorph`).

The two pipelines have their filters in different places, so their streams are compared by
`Running.InStep`: the second list of filters does the work of the first, with idle filters in
between. One token keeps two streams in step (`Running.InStep.passThrough`), hence so does every
step of the streams (`Stream.InStep.advance`). Main statement: `keeping_forms_removes_stemming`.
-/

set_option autoImplicit false

namespace TextAnalysis

/-! ## Passing in place of stemming -/

mutual

/-- The filter with one that passes every token in the place of every filter that changes word
forms. -/
def Filter.withoutMorph : Filter → Filter
  | .dispatch d => .dispatch d.withoutMorph
  | .stem _ => .pass
  | f => f

/-- A dispatching filter with such filters in the place of those that change word forms. -/
def Dispatch.withoutMorph : Dispatch → Dispatch
  | .otherwise f => .otherwise f.withoutMorph
  | .mode m f rest => .mode m f.withoutMorph rest.withoutMorph

end

/-- The pipeline with filters that pass every token in the place of all that change word forms. -/
def Pipeline.withoutMorph (p : Pipeline) : Pipeline :=
  { p with filters := p.filters.map Filter.withoutMorph }

/-- What is left of a filter does not change word forms. -/
theorem Filter.isMorph_withoutMorph (f : Filter) : f.withoutMorph.isMorph = false := by
  cases f <;> rfl

mutual

/-- Where word forms are kept, a filter settles on the work of the one without stemming, whose work
does not depend on whether word forms are kept. -/
theorem Filter.settle_withoutMorph (keepForms : Bool) (mode : String) :
    ∀ f : Filter, f.withoutMorph.settle keepForms mode =
      if f.isMorph then .pass else f.settle true mode
  | .dispatch d => d.settle_withoutMorph keepForms mode
  | .pass | .lowercase | .strip => rfl
  | .charset _ | .stop _ | .stem _ | .report _ => rfl

/-- Without its filters for word forms, a dispatching filter settles as one that keeps them does. -/
theorem Dispatch.settle_withoutMorph (keepForms : Bool) (mode : String) :
    ∀ d : Dispatch, d.withoutMorph.settle keepForms mode = d.settle true mode
  | .otherwise f => by
    rw [Dispatch.withoutMorph, Dispatch.settle, Dispatch.settle, f.isMorph_withoutMorph,
      Bool.and_false, Bool.true_and, f.settle_withoutMorph keepForms mode]
    rfl
  | .mode m f rest => by
    rw [Dispatch.withoutMorph, Dispatch.settle, Dispatch.settle, f.isMorph_withoutMorph,
      Bool.and_false, Bool.true_and, f.settle_withoutMorph keepForms mode,
      rest.settle_withoutMorph keepForms mode]
    rfl

end

mutual

/-- Where word forms are kept, no filter but a stem filter itself settles on stemming. -/
theorem Filter.stemFilters_settle_keeping (mode : String) :
    ∀ f : Filter, f.isMorph = false → (f.settle true mode).stemFilters = []
  | .dispatch d, _ => d.stemFilters_settle_keeping mode
  | .pass, _ | .lowercase, _ | .strip, _ => rfl
  | .charset _, _ | .stop _, _ | .report _, _ => rfl

/-- Where forms are kept, a dispatching filter settles without a stem filter. -/
theorem Dispatch.stemFilters_settle_keeping (mode : String) :
    ∀ d : Dispatch, (d.settle true mode).stemFilters = []
  | .otherwise f => by
    rw [Dispatch.settle, Bool.true_and]
    split
    · rfl
    · next hmorph => exact f.stemFilters_settle_keeping mode (Bool.not_eq_true _ ▸ hmorph)
  | .mode m f rest => by
    rw [Dispatch.settle, Bool.true_and]
    split
    · split
      · rfl
      · next hmorph => exact f.stemFilters_settle_keeping mode (Bool.not_eq_true _ ▸ hmorph)
    · exact rest.stemFilters_settle_keeping mode

end

mutual

/-- Where nothing changes word forms, there is nothing to replace. -/
theorem Filter.withoutMorph_of_hasMorph :
    ∀ f : Filter, f.hasMorph = false → f.withoutMorph = f
  | .dispatch d, h => congrArg Filter.dispatch (d.withoutMorph_of_hasMorph h)
  | .pass, _ | .lowercase, _ | .strip, _ => rfl
  | .charset _, _ | .stop _, _ | .report _, _ => rfl

/-- A dispatching filter that changes no word forms loses nothing. -/
theorem Dispatch.withoutMorph_of_hasMorph :
    ∀ d : Dispatch, d.hasMorph = false → d.withoutMorph = d
  | .otherwise f, h => congrArg Dispatch.otherwise (f.withoutMorph_of_hasMorph h)
  | .mode m f rest, h => by
    obtain ⟨hf, hrest⟩ := Bool.or_eq_false_iff.mp h
    rw [Dispatch.withoutMorph, f.withoutMorph_of_hasMorph hf, rest.withoutMorph_of_hasMorph hrest]

end

/-- Nor does such a pipeline. -/
theorem Pipeline.withoutMorph_of_hasMorph {p : Pipeline} (h : p.hasMorph = false) :
    p.withoutMorph = p := by
  have hfilters : ∀ f ∈ p.filters, f.withoutMorph = f := by
    intro f hf
    rw [hasMorph, List.any_eq_false] at h
    have hmem : Stage.filter f ∈ p.stages := List.mem_cons_of_mem _ (List.mem_map_of_mem hf)
    exact f.withoutMorph_of_hasMorph (Bool.not_eq_true _ ▸ h _ hmem)
  rw [withoutMorph, List.map_congr_left hfilters, List.map_id']

/-! ## One token -/

/-- A worker that is no stem filter does the same in any workspaces, and uses no cache. -/
theorem Worker.step_of_stemFilters_eq_nil {k : Worker} (hk : k.stemFilters = [])
    (v w : Workspace) (t : Token) :
    (k.step v t).token = (k.step w t).token ∧ (k.step v t).kept = (k.step w t).kept ∧
      (k.step v t).filter = (k.step w t).filter ∧ (k.step v t).workspace.caches = v.caches := by
  cases k with
  | stem f => cases hk
  | report r =>
    unfold step
    dsimp only
    split <;> exact ⟨rfl, rfl, rfl, rfl⟩
  | pass | lowercase | strip | charset | stop | unstopped => exact ⟨rfl, rfl, rfl, rfl⟩

/-- The filters of the second list do the work of those of the first, with filters in between that
pass every token. None of them stems. -/
inductive Running.InStep : List Running → List Running → Prop where
  | nil : InStep [] []
  | work {r q : Running} {rs qs : List Running} (hwork : ∀ mode, r.worker mode = q.worker mode)
      (hstem : ∀ mode, (r.worker mode).stemFilters = []) (hrest : InStep rs qs) :
      InStep (r :: rs) (q :: qs)
  | idle {q : Running} {rs qs : List Running} (hidle : ∀ mode, q.worker mode = .pass)
      (hrest : InStep rs qs) : InStep rs (q :: qs)

/-- A filter that settles on no stemming does the same in any workspaces, and uses no cache. -/
theorem Running.step_of_stemFilters_eq_nil {r : Running}
    (hr : ∀ mode, (r.worker mode).stemFilters = []) (v w : Workspace) (t : Token) :
    (r.step v t).token = (r.step w t).token ∧ (r.step v t).kept = (r.step w t).kept ∧
      (r.step v t).filter = (r.step w t).filter ∧ (r.step v t).workspace.caches = v.caches ∧
      ∀ mode, ((r.step v t).filter.worker mode).stemFilters = [] := by
  obtain ⟨htoken, hkept, hfilter, hcaches⟩ := Worker.step_of_stemFilters_eq_nil (hr t.mode) v w t
  refine ⟨htoken, hkept, congrArg Running.working hfilter, hcaches, fun _ => ?_⟩
  exact (Worker.stemFilters_step _ v t).trans (hr t.mode)

/-- A token leaves filters that are in step as the same token, and leaves them in step. -/
theorem inStep_passThrough {rs qs : List Running} (h : Running.InStep rs qs) (v w : Workspace)
    (t : Token) :
    (passThrough v t rs).token = (passThrough w t qs).token ∧
      (passThrough v t rs).kept = (passThrough w t qs).kept ∧
      Running.InStep (passThrough v t rs).filter (passThrough w t qs).filter ∧
      (passThrough v t rs).workspace.caches = v.caches := by
  induction h generalizing v w t with
  | nil => exact ⟨rfl, rfl, .nil, rfl⟩
  | @work r q rs qs hwork hstem hrest ih =>
    obtain ⟨htoken, hkept, hfilter, hcaches, hnext⟩ :=
      Running.step_of_stemFilters_eq_nil hstem v w t
    have hstep : q.step w t = r.step w t := by rw [Running.step, Running.step, hwork]
    rw [passThrough, passThrough, hstep]
    dsimp only
    rw [← hkept, ← htoken, ← hfilter]
    split
    · obtain ⟨htokens, hkepts, hfilters, hcaches'⟩ :=
        ih (r.step v t).workspace (r.step w t).workspace (r.step v t).token
      exact ⟨htokens, hkepts, .work (fun _ => rfl) hnext hfilters, hcaches'.trans hcaches⟩
    · exact ⟨rfl, rfl, .work (fun _ => rfl) hnext hrest, hcaches⟩
  | @idle q rs qs hidle hrest ih =>
    have hstep : q.step w t = ⟨w, .working .pass, t, true⟩ := by
      rw [Running.step, hidle]
      rfl
    obtain ⟨htoken, hkept, hfilters, hcaches⟩ := ih v w t
    rw [passThrough.eq_def w t (q :: qs)]
    simp only [hstep, ↓reduceIte]
    exact ⟨htoken, hkept, .idle (fun _ => rfl) hfilters, hcaches⟩

/-! ## All tokens -/

namespace Stream

/-- Two streams take the same updates into the same record, and have filters that are in step. -/
structure InStep (s t : Stream) : Prop where
  record : s.record = t.record
  pending : s.pending = t.pending
  filters : Running.InStep s.filters t.filters

namespace InStep

/-- One step of two streams that are in step. -/
theorem advance {s t : Stream} (h : s.InStep t) (v w : Workspace) :
    (s.advance v).1 = (t.advance w).1 ∧ (s.advance v).2.1.InStep (t.advance w).2.1 ∧
      (s.advance v).2.2.caches = v.caches := by
  obtain ⟨record, updates, rs⟩ := s
  obtain ⟨record', updates', qs⟩ := t
  obtain ⟨rfl, rfl, hfilters⟩ := h
  simp only [Stream.advance]
  induction updates generalizing v w record rs qs with
  | nil => exact ⟨rfl, ⟨rfl, rfl, hfilters⟩, rfl⟩
  | cons u rest ih =>
    obtain ⟨htoken, hkept, hnext, hcaches⟩ := inStep_passThrough hfilters v w (u.apply record)
    rw [advanceFrom, advanceFrom, ← htoken, ← hkept]
    split
    · exact ⟨rfl, ⟨rfl, rfl, hnext⟩, hcaches⟩
    · obtain ⟨hfound, hstate, hcaches'⟩ := ih (passThrough v (u.apply record) rs).workspace
        (passThrough w (u.apply record) qs).workspace _ _ _ hnext
      exact ⟨hfound, hstate, hcaches'.trans hcaches⟩

/-- Any number of steps of two streams that are in step. -/
theorem seen {s t : Stream} (h : s.InStep t) (n : Nat) (v w : Workspace) :
    Producer.streams.seen n v s = Producer.streams.seen n w t ∧
      (Producer.streams.after n v s).2.caches = v.caches := by
  induction n generalizing s t v w with
  | zero => exact ⟨rfl, rfl⟩
  | succ n ih =>
    obtain ⟨hfound, hstate, hcaches⟩ := h.advance v w
    obtain ⟨hseen, hcaches'⟩ := ih hstate (s.advance v).2.2 (t.advance w).2.2
    refine ⟨?_, hcaches'.trans hcaches⟩
    exact List.cons_eq_cons.mpr ⟨Prod.ext hfound hstate.record, hseen⟩

end InStep

/-- Streams that show the same in every number of steps have the same tokens. -/
theorem drain_fst_eq_of_seen {s t : Stream} {v w : Workspace}
    (h : ∀ n, Producer.streams.seen n v s = Producer.streams.seen n w t) :
    (s.drain v).1 = (t.drain w).1 := by
  have htake : ∀ n, (s.drain v).1.take n = (t.drain w).1.take n := by
    intro n
    rw [← tokens_seen, ← tokens_seen, h]
  have hall := htake ((s.drain v).1.length + (t.drain w).1.length)
  rwa [List.take_of_length_le (Nat.le_add_right _ _),
    List.take_of_length_le (Nat.le_add_left _ _)] at hall

end Stream

/-! ## Pipelines -/

namespace Pipeline

/-- Where word forms are kept, the filters that run are in step with those that pass every token in
the place of stemming, whether these are told to keep word forms or not. -/
theorem inStep_filters (b : Bool) (filters : List Filter) :
    Running.InStep
      ((filters.filter fun f => !(true && f.isMorph)).map (Running.ofFilter true))
      (((filters.map Filter.withoutMorph).filter fun f => !(b && f.isMorph)).map
        (Running.ofFilter b)) := by
  induction filters with
  | nil => exact .nil
  | cons f rest ih =>
    have hworker : ∀ mode, (Running.ofFilter b f.withoutMorph).worker mode =
        if f.isMorph then .pass else f.settle true mode := by
      intro mode
      rw [Running.worker_ofFilter, f.settle_withoutMorph]
    rw [List.map_cons, List.filter_cons, List.filter_cons, f.isMorph_withoutMorph, Bool.and_false,
      Bool.true_and]
    cases hmorph : f.isMorph with
    | true => exact .idle (fun mode => by rw [hworker, hmorph]; rfl) ih
    | false =>
      refine .work (fun mode => ?_) (fun mode => ?_) ih
      · rw [hworker, Running.worker_ofFilter, hmorph]
        rfl
      · rw [Running.worker_ofFilter]
        exact f.stemFilters_settle_keeping mode hmorph

/-- Where word forms are kept, the stream of a text is in step with that of the pipeline without
stemming. -/
theorem inStep_streamOfText (p : Pipeline) (o : Options) (b : Bool) (text : String) :
    (p.streamOfText { o with keepForms := true } text).InStep
      (p.withoutMorph.streamOfText { o with keepForms := b } text) := by
  have hcut : p.tokenizer.tokenize { o with keepForms := true } text =
      p.tokenizer.tokenize { o with keepForms := b } text := by
    apply Tokenizer.tokenize_congr <;> rfl
  have hstart := (p.tokenizer.start_tokenize { o with keepForms := b } text).1
  rw [streamOfText_eq, streamOfText_eq, hcut]
  refine ⟨rfl, rfl, ?_⟩
  simp only [withoutMorph, hstart, List.nil_append]
  exact inStep_filters b p.filters

end Pipeline

/-- Two analyses cannot be told apart by their tokens: they fail in the same way, or the streams
show the same in every number of steps and have the same tokens, whatever the workspaces. -/
def SameAnalysis (a b : Except Failure Stream) : Prop :=
  match a, b with
  | .ok s, .ok t => ∀ v w,
    (∀ n, Producer.streams.seen n v s = Producer.streams.seen n w t) ∧
      (s.drain v).1 = (t.drain w).1
  | .error e, .error e' => e = e'
  | _, _ => False

/-- Keeping forms gives the analysis of the pipeline without its filters for word forms. -/
theorem Pipeline.sameAnalysis_withoutMorph (p : Pipeline) (o : Options) (b : Bool) (input : Input) :
    SameAnalysis (p.analyze { o with keepForms := true } input)
      (p.withoutMorph.analyze { o with keepForms := b } input) := by
  unfold analyze
  cases input.decode with
  | error e => rfl
  | ok text =>
    intro v w
    have hseen : ∀ n, _ := fun n => ((p.inStep_streamOfText o b text).seen n v w).1
    exact ⟨hseen, Stream.drain_fst_eq_of_seen hseen⟩

/-- **Keeping word forms leaves out the stemming and nothing else.** Under the option to keep word
forms, a pipeline gives the same tokens as the pipeline that passes every token in the place of
every stem filter, at whatever depth this stands, and no step changes a cache. Where nothing in the
pipeline changes word forms, the option makes no difference. -/
theorem keeping_forms_removes_stemming (p : Pipeline) (o : Options) (input : Input) :
    SameAnalysis (p.analyze { o with keepForms := true } input)
      (p.withoutMorph.analyze { o with keepForms := true } input) ∧
    (∀ s, p.analyze { o with keepForms := true } input = .ok s →
      ∀ n w, (Producer.streams.after n w s).2.caches = w.caches) ∧
    (p.hasMorph = false →
      SameAnalysis (p.analyze { o with keepForms := true } input)
        (p.analyze { o with keepForms := false } input)) := by
  refine ⟨p.sameAnalysis_withoutMorph o true input, ?_, ?_⟩
  · intro s hs n w
    unfold Pipeline.analyze at hs
    cases hinput : input.decode with
    | error e => rw [hinput] at hs; cases hs
    | ok text =>
      rw [hinput] at hs
      obtain rfl := Except.ok.inj hs
      exact ((p.inStep_streamOfText o true text).seen n w w).2
  · intro hmorph
    have hsame := p.sameAnalysis_withoutMorph o false input
    rwa [Pipeline.withoutMorph_of_hasMorph hmorph] at hsame

/-- Two foxes under a stem filter that keeps their form, and a filter that dispatches to it. -/
theorem keeping_forms_two_foxes :
    let words : Pipeline := ⟨"words", .charset (({} : CharMap).breakOn ' '), [.strip]⟩
    let stems : Pipeline :=
      words.addFilter (.dispatch (.otherwise (.stem { stemmer := .custom "hyphen" 0, cache := 0 })))
    let w : Workspace := { stemmers := [fun word => word ++ "-"] }
    let kept := stems.streamOfText { keepForms := true } "two foxes"
    let stemmed := stems.streamOfText {} "two foxes"
    stems.analyze { keepForms := true } (.text "two foxes") = .ok kept ∧
      (∀ n, (Producer.streams.after n w kept).2.caches = w.caches) ∧
      words.hasMorph = false ∧
      SameAnalysis (words.analyze { keepForms := true } (.text "two foxes"))
        (words.analyze { keepForms := false } (.text "two foxes")) ∧
      (kept.drain w).1.map Token.text = ["two", "foxes"] ∧
      (stemmed.drain w).1.map Token.text = ["two-", "foxes-"] := by
  intro words stems w kept stemmed
  refine ⟨rfl, ?_, rfl, ?_, by decide, by decide⟩
  · exact fun n => (keeping_forms_removes_stemming stems {} (.text "two foxes")).2.1 kept rfl n w
  · exact (keeping_forms_removes_stemming words {} (.text "two foxes")).2.2 rfl

end TextAnalysis
