import TextAnalysis.Proofs.Arriving
import TextAnalysis.Proofs.Describing
import TextAnalysis.Proofs.Session

/-!
# What is reported, and when

Streams do nothing before they are asked for a token, and then no more than is needed for it. Every
token that the tokenizer cuts goes through the stages before the next one is cut; a reporting stage
reports it as it stands there, and what a stage drops does not come to the stages behind it.

The reports of one token are `events_passThrough`, those of a run `Stream.events_fed`. What
comes to a stage is in turn what a pipeline cut before this stage yields
(`Pipeline.map_lines_arrivals`), and a report tells its token (`Reporter.event_eq_iff`). Main
statement: `reports_follow_tokens`.
-/

set_option autoImplicit false

namespace TextAnalysis

/-! ## Reporting filters -/

/-- The sink to which a line has been sent. -/
def Event.sink? : Event → Option String
  | line sink _ => some sink
  | message _ _ _ => none

/-- A line goes to the sink of the filter that reports it. -/
theorem Reporter.sink?_event (r : Reporter) (t : Token) : (r.event t).sink? = r.sink := by
  unfold event
  cases hsink : r.sink <;> rfl

/-- What is reported of a token tells the token, up to weights that are written alike. -/
theorem Reporter.event_eq_iff (r : Reporter) (t u : Token) :
    r.event t = r.event u ↔
      { t with boost := u.boost } = u ∧
        Token.describeBoost t.boost = Token.describeBoost u.boost := by
  rw [← Token.describe_eq_iff]
  unfold event
  cases r.sink with
  | some sink => rw [Event.line.injEq, and_iff_right rfl]
  | none => rw [Event.message.injEq, and_iff_right rfl, and_iff_right rfl]

mutual

/-- The reporting filter that tokens of the given mode meet. -/
def Filter.reporter? (mode : String) : Filter → Option Reporter
  | .dispatch d => d.reporter? mode
  | .report r => some r
  | _ => none

/-- The reporting filter that a dispatching filter chooses for a mode, if it chooses one. -/
def Dispatch.reporter? (mode : String) : Dispatch → Option Reporter
  | .otherwise f => f.reporter? mode
  | .mode m f rest => if m = mode then f.reporter? mode else rest.reporter? mode

end

/-- The worker as a reporting filter, if it is one. -/
def Worker.reporter? : Worker → Option Reporter
  | report r => some r
  | _ => none

/-- The filter of a stream as a reporting filter for tokens of a mode. -/
def Running.reporter? (mode : String) (r : Running) : Option Reporter := (r.worker mode).reporter?

/-- Morphological filters do not report. -/
theorem Filter.reporter?_of_isMorph {f : Filter} (h : f.isMorph = true) (mode : String) :
    f.reporter? mode = none := by
  cases f <;> first | rfl | cases h

mutual

/-- A filter that is settled on a mode reports as it does for tokens of this mode. -/
theorem Filter.reporter?_settle (keepForms : Bool) (mode : String) :
    ∀ f : Filter, (f.settle keepForms mode).reporter? = f.reporter? mode
  | .dispatch d => d.reporter?_settle keepForms mode
  | .pass | .lowercase | .strip => rfl
  | .charset _ | .stop _ | .stem _ | .report _ => rfl

/-- So does a dispatching filter. -/
theorem Dispatch.reporter?_settle (keepForms : Bool) (mode : String) :
    ∀ d : Dispatch, (d.settle keepForms mode).reporter? = d.reporter? mode
  | .otherwise f => by
    rw [Dispatch.settle, Dispatch.reporter?]
    split
    · next hskip => rw [f.reporter?_of_isMorph (Bool.and_eq_true_iff.mp hskip).2 mode]; rfl
    · exact f.reporter?_settle keepForms mode
  | .mode m f rest => by
    rw [Dispatch.settle, Dispatch.reporter?]
    split
    · split
      · next hskip => rw [f.reporter?_of_isMorph (Bool.and_eq_true_iff.mp hskip).2 mode]; rfl
      · exact f.reporter?_settle keepForms mode
    · exact rest.reporter?_settle keepForms mode

end

namespace Workspace

/-- A report is one more event. -/
theorem events_report (w : Workspace) (e : Event) : (w.report e).events = w.events ++ [e] :=
  List.reverse_cons

/-- Stemming reports nothing. -/
theorem events_stem (w : Workspace) (f : StemFilter) (word : String) :
    (w.stem f word).2.events = w.events := by
  unfold stem
  split
  · rfl
  · split <;> rfl

end Workspace

namespace Worker

/-- A worker reports the same whether or not it has seen tokens. -/
theorem reporter?_fresh (k : Worker) : k.fresh.reporter? = k.reporter? := by
  cases k <;> rfl

/-- A step does not change whether a worker reports. -/
theorem reporter?_step (k : Worker) (w : Workspace) (t : Token) :
    (k.step w t).filter.reporter? = k.reporter? := by
  rw [← reporter?_fresh, fresh_step, reporter?_fresh]

/-- A reporting filter reports the token that comes to it, and no other worker reports. -/
theorem events_step (k : Worker) (w : Workspace) (t : Token) :
    (k.step w t).workspace.events = w.events ++ (k.reporter?.map (·.event t)).toList := by
  have hsilent : w.events = w.events ++ [] := (List.append_nil _).symm
  cases k with
  | stem f =>
    cases hignored : t.stopped || f.ignored.contains t.text with
    | true => rw [step_stem_of_ignored hignored]; exact hsilent
    | false =>
      rw [step_stem_of_not_ignored hignored]
      exact (w.events_stem f t.text).trans hsilent
  | report r =>
    rw [step_report]
    exact w.events_report (r.event t)
  | pass | lowercase | strip | charset | stop | unstopped => exact hsilent

end Worker

/-! ## The lines about one token -/

/-- What reporting filters report of one token. There may be one at every place, and `fate i` is the
token as it comes to the place `i`, if it does. -/
def linesOf (reporters : List (Option Reporter)) (fate : Nat → Option Token) : List Event :=
  (reporters.mapIdx fun i r => r.bind fun r => (fate i).map r.event).reduceOption

section Lines

variable {fate : Nat → Option Token}

/-- The lines about a token start with that of the first place. -/
theorem linesOf_cons (r : Option Reporter) (rs : List (Option Reporter)) :
    linesOf (r :: rs) fate =
      (r.bind fun r => (fate 0).map r.event).toList ++ linesOf rs fun i => fate (i + 1) := by
  unfold linesOf
  rw [List.mapIdx_cons]
  cases (r.bind fun r => (fate 0).map r.event) with
  | none => rw [List.reduceOption_cons_of_none]; rfl
  | some e => rw [List.reduceOption_cons_of_some]; rfl

/-- Of two lists of places, the lines of the first come first. -/
theorem linesOf_append (rs qs : List (Option Reporter)) :
    linesOf (rs ++ qs) fate = linesOf rs fate ++ linesOf qs fun i => fate (i + rs.length) := by
  induction rs generalizing fate with
  | nil => rfl
  | cons r rs ih =>
    rw [List.cons_append, linesOf_cons, linesOf_cons, ih, List.append_assoc]
    simp only [List.length_cons, Nat.add_assoc]

/-- Nothing is reported of a token that comes to no place. -/
theorem linesOf_none (rs : List (Option Reporter)) : linesOf rs (fun _ => none) = [] := by
  induction rs with
  | nil => rfl
  | cons r rs ih =>
    rw [linesOf_cons, ih]
    cases r <;> rfl

/-- Places without reporting filters may be left out. -/
theorem linesOf_filter {α : Type} {q : α → Bool} {reporter : α → Option Reporter} {l : List α}
    (hsilent : ∀ a ∈ l, q a = false → reporter a = none) (fate : List α → Option Token) :
    linesOf ((l.filter q).map reporter) (fun i => fate ((l.filter q).take i)) =
      linesOf (l.map reporter) fun i => fate ((l.take i).filter q) := by
  induction l generalizing fate with
  | nil => rfl
  | cons a l ih =>
    have hrest := ih fun b hb => hsilent b (List.mem_cons_of_mem _ hb)
    rw [List.map_cons, linesOf_cons]
    cases ha : q a with
    | true =>
      simp only [List.filter_cons, ha, ↓reduceIte, List.map_cons, linesOf_cons, List.take_succ_cons,
        List.take_zero, List.filter_nil]
      rw [hrest fun before => fate (a :: before)]
    | false =>
      simp only [List.filter_cons, ha, Bool.false_eq_true, ↓reduceIte, List.take_succ_cons,
        hsilent a List.mem_cons_self ha, Option.bind_none, Option.toList_none, List.nil_append]
      exact hrest fate

/-- Reporting filters with other sinks send nothing to a sink. -/
theorem filter_linesOf_eq_nil {sink : String} {rs : List (Option Reporter)}
    (h : ∀ r, some r ∈ rs → r.sink ≠ some sink) :
    (linesOf rs fate).filter (fun e => e.sink? = some sink) = [] := by
  induction rs generalizing fate with
  | nil => rfl
  | cons r rs ih =>
    rw [linesOf_cons, List.filter_append, ih fun q hq => h q (List.mem_cons_of_mem _ hq),
      List.append_nil]
    cases r with
    | none => rfl
    | some r =>
      have hr := h r List.mem_cons_self
      cases fate 0 with
      | none => rfl
      | some t => simp [r.sink?_event, hr]

end Lines

/-- **The reports of one token.** Each reporting filter reports the token as the filters in front of
it leave it, if they keep it. -/
theorem events_passThrough (w : Workspace) (t : Token) (filters : List Running) :
    (passThrough w t filters).workspace.events = w.events ++
      linesOf (filters.map (Running.reporter? t.mode))
        fun i => (passThrough w t (filters.take i)).fate := by
  induction filters generalizing w t with
  | nil => exact (List.append_nil _).symm
  | cons r rest ih =>
    have hstep : (r.step w t).workspace.events =
        w.events ++ ((r.reporter? t.mode).map (·.event t)).toList :=
      Worker.events_step _ w t
    have hmode : (r.step w t).token.mode = t.mode := (Worker.sameOrigin_step _ w t).mode
    have hfirst : (passThrough w t []).fate = some t := rfl
    simp only [List.map_cons, linesOf_cons, List.take_zero, List.take_succ_cons, hfirst,
      fate_passThrough_cons]
    rw [passThrough]
    dsimp only
    have hhead : ((r.reporter? t.mode).bind fun r => (some t).map r.event) =
        (r.reporter? t.mode).map (·.event t) := by
      cases r.reporter? t.mode <;> rfl
    rw [hhead, ← List.append_assoc, ← hstep]
    split
    · rw [ih, hmode]
    · rw [linesOf_none, List.append_nil]

/-- What is reported of an arrival. -/
def Arrival.lines (a : Arrival) : List Event :=
  linesOf (a.filters.map (Running.reporter? a.token.mode)) a.fate

/-- All that is reported is about the tokens taken, token by token. -/
theorem Stream.events_fed (w : Workspace) (s : Stream) (count : Nat) :
    (s.fed w count).2.events =
      w.events ++ ((s.arrivals w).take count).flatMap Arrival.lines := by
  obtain ⟨record, updates, filters⟩ := s
  induction updates generalizing w record filters count with
  | nil => cases count <;> exact (List.append_nil _).symm
  | cons u rest ih =>
    cases count with
    | zero => exact (List.append_nil _).symm
    | succ count =>
      have hevents : (passThrough w (u.apply record) filters).workspace.events =
          w.events ++ (Arrival.mk w (u.apply record) filters).lines :=
        events_passThrough w (u.apply record) filters
      rw [arrivals, arrivalsFrom, List.take_succ_cons, List.flatMap_cons, ← List.append_assoc,
        ← hevents]
      exact ih _ count _ _

/-! ## Reports of a pipeline -/

/-- A filter reports as the filter it runs. -/
theorem reporter?_ofFilter (keepForms : Bool) (mode : String) (f : Filter) :
    (Running.ofFilter keepForms f).reporter? mode = f.reporter? mode := by
  rw [Running.reporter?, Running.worker_ofFilter, f.reporter?_settle]

/-- What the filters report does not change when a token passes them. -/
theorem map_reporter?_passThrough {mode : String} {t : Token} (ht : t.mode = mode) (w : Workspace)
    (filters : List Running) :
    (passThrough w t filters).filter.map (Running.reporter? mode) =
      filters.map (Running.reporter? mode) := by
  subst ht
  induction filters generalizing w t with
  | nil => rfl
  | cons r rest ih =>
    have hstep : (r.step w t).filter.reporter? t.mode = r.reporter? t.mode :=
      Worker.reporter?_step _ w t
    have hmode : (r.step w t).token.mode = t.mode := (Worker.sameOrigin_step _ w t).mode
    have hrest := ih (t := (r.step w t).token) (r.step w t).workspace
    rw [hmode] at hrest
    rw [passThrough]
    dsimp only
    split
    · rw [List.map_cons, List.map_cons, hstep, hrest]
    · rw [List.map_cons, List.map_cons, hstep]

/-- What is reported of an arrival is decided by the filters with which the stream starts. -/
theorem lines_of_mem_arrivalsFrom {o : Options} {w : Workspace} {record : Token}
    {filters : List Running} {index : Nat} {pieces : List Piece}
    (hrecord : pieces ≠ [] → record.mode = o.mode) {a : Arrival}
    (ha : a ∈ arrivalsFrom w record filters (Piece.updatesFrom o index pieces)) :
    a.lines = linesOf (filters.map (Running.reporter? o.mode)) a.fate := by
  induction pieces generalizing w record filters index with
  | nil => cases ha
  | cons p rest ih =>
    have hmode : ((p.update o index).apply record).mode = o.mode := by
      rw [Piece.apply_update]
      exact hrecord (List.cons_ne_nil p rest)
    rw [Piece.updatesFrom, arrivalsFrom] at ha
    rcases List.mem_cons.mp ha with rfl | ha
    · rw [Arrival.lines, hmode]
    · have hnext := (sameOrigin_passThrough w ((p.update o index).apply record) filters).mode
      rw [ih (fun _ => hnext.trans hmode) ha, map_reporter?_passThrough hmode]

namespace Pipeline

variable {stemmers : List (String → String)} {owned : List StemFilter} {w : Workspace}

/-- What the stages report of one token of the tokenizer, in the order of the stages. A stage reports
what the pipeline makes of the token that is cut before this stage. -/
def lines (p : Pipeline) (o : Options) (text : String) (w : Workspace) (place : Nat) : List Event :=
  linesOf (p.filters.map (Filter.reporter? o.mode)) fun stage =>
    ((p.cutAt stage).fates o text w)[place]?.join

/-- The lines of an arrival are those of the filters of the pipeline. -/
theorem lines_of_mem_arrivals {p : Pipeline} {o : Options} {text : String} {filters : List Filter}
    {a : Arrival} (ha : a ∈ (p.feeding o text filters).arrivals w) :
    a.lines = linesOf (filters.map (Filter.reporter? o.mode)) a.fate := by
  have hreporters : (filters.map (Running.ofFilter o.keepForms)).map (Running.reporter? o.mode) =
      filters.map (Filter.reporter? o.mode) := by
    rw [List.map_map]
    exact List.map_congr_left fun f _ => reporter?_ofFilter o.keepForms o.mode f
  rw [Stream.arrivals, feeding] at ha
  dsimp only at ha
  rw [p.tokenizer.pending_tokenize o text] at ha
  rw [← hreporters]
  refine lines_of_mem_arrivalsFrom ?_ ha
  intro hne
  rw [(p.tokenizer.record_tokenize o text).resolve_left hne]
  rfl

/-- **The reports of the stages are the reports of the arrivals.** -/
theorem map_lines_arrivals (p : Pipeline) (o : Options) (text : String)
    (hw : w.Sound stemmers owned) (hp : p.stemFilters ⊆ owned) :
    ((p.streamOfText o text).arrivals w).map Arrival.lines =
      (List.range (p.fates o text w).length).map (p.lines o text w) := by
  have hstems := List.Subset.trans (p.stemFilters_activeFilters o) hp
  have hsilent : ∀ f ∈ p.filters, (!(o.keepForms && f.isMorph)) = false →
      f.reporter? o.mode = none := by
    intro f _ hskip
    rw [Bool.not_eq_false'] at hskip
    exact f.reporter?_of_isMorph (Bool.and_eq_true_iff.mp hskip).2 o.mode
  rw [fates, streamOfText_eq_feeding]
  apply List.ext_getElem
  · rw [List.length_map, List.length_map, List.length_range, Stream.length_arrivals,
      Stream.length_fates]
  · intro place hplace _
    rw [List.length_map] at hplace
    have hfate : ((p.feeding o text (p.activeFilters o)).arrivals w)[place].fate = fun count =>
        ((p.feeding o text ((p.activeFilters o).take count)).fates w)[place]?.join := by
      funext count
      rw [p.fates_feeding_take o text hw hstems, List.getElem?_map,
        List.getElem?_eq_getElem hplace]
      rfl
    rw [List.getElem_map, List.getElem_map, List.getElem_range,
      lines_of_mem_arrivals (List.getElem_mem hplace), hfate, lines]
    -- The stages that do not run where word forms are kept report nothing.
    simp only [fates_cutAt]
    exact linesOf_filter hsilent fun before => ((p.feeding o text before).fates w)[place]?.join

/-- After some steps of a stream, the events are the lines about the tokens that it has taken so
far. -/
theorem events_after (p : Pipeline) (o : Options) (text : String) (hw : w.Sound stemmers owned)
    (hp : p.stemFilters ⊆ owned) (n : Nat) :
    (Producer.streams.after n w (p.streamOfText o text)).2.events =
      w.events ++
        (List.range (consumed n (p.fates o text w))).flatMap (p.lines o text w) := by
  have hlines := congrArg (List.take (consumed n (p.fates o text w)))
    (p.map_lines_arrivals o text hw hp)
  rw [← List.map_take, ← List.map_take, List.take_range,
    Nat.min_eq_left (consumed_le_length n _)] at hlines
  rw [Stream.after_eq_fed, Stream.events_fed, List.flatMap_def, List.flatMap_def]
  exact congrArg (w.events ++ ·.flatten) hlines

/-- Draining reports about all tokens of the tokenizer. -/
theorem events_drain (p : Pipeline) (o : Options) (text : String) (hw : w.Sound stemmers owned)
    (hp : p.stemFilters ⊆ owned) :
    ((p.streamOfText o text).drain w).2.2.events =
      w.events ++ (List.range (p.fates o text w).length).flatMap (p.lines o text w) := by
  have hall : consumed (p.streamOfText o text).pending.length (p.fates o text w) =
      (p.fates o text w).length :=
    consumed_of_length_le (Nat.le_of_eq (Stream.length_fates w _))
  rw [Stream.drain, Stream.take_snd, p.events_after o text hw hp, hall]

/-- Where one stage only reports to a sink, this gets the lines of that stage. -/
theorem filter_lines_of_sink {p : Pipeline} {o : Options} {before rest : List Filter} {f : Filter}
    {r : Reporter} {sink : String} (hfilters : p.filters = before ++ f :: rest)
    (hr : f.reporter? o.mode = some r) (hsink : r.sink = some sink)
    (hother : ∀ g ∈ before ++ rest, ∀ q, g.reporter? o.mode = some q → q.sink ≠ some sink)
    (text : String) (w : Workspace) (place : Nat) :
    (p.lines o text w place).filter (fun e => e.sink? = some sink) =
      (((p.cutAt before.length).fates o text w)[place]?.join.map r.event).toList := by
  have hbefore : ∀ q, some q ∈ before.map (Filter.reporter? o.mode) → q.sink ≠ some sink := by
    intro q hq
    obtain ⟨g, hg, hgq⟩ := List.mem_map.mp hq
    exact hother g (List.mem_append_left _ hg) q hgq
  have hrest : ∀ q, some q ∈ rest.map (Filter.reporter? o.mode) → q.sink ≠ some sink := by
    intro q hq
    obtain ⟨g, hg, hgq⟩ := List.mem_map.mp hq
    exact hother g (List.mem_append_right _ hg) q hgq
  rw [lines, hfilters, List.map_append, List.map_cons, linesOf_append, linesOf_cons,
    List.filter_append, List.filter_append, filter_linesOf_eq_nil hbefore,
    filter_linesOf_eq_nil hrest, List.nil_append, List.append_nil, hr, Option.bind_some,
    List.length_map, Nat.zero_add]
  cases ((p.cutAt before.length).fates o text w)[place]?.join with
  | none => rfl
  | some t => simp [r.sink?_event, hsink]

end Pipeline

/-- Values that may be missing, taken place by place, are the values that are there. -/
theorem flatMap_range_join {α β : Type} (g : α → β) (l : List (Option α)) :
    ((List.range l.length).flatMap fun i => (l[i]?.join.map g).toList) = l.reduceOption.map g := by
  induction l with
  | nil => rfl
  | cons a l ih =>
    rw [List.length_cons, List.range_succ_eq_map, List.flatMap_cons, List.flatMap_map]
    simp only [List.getElem?_cons_zero, List.getElem?_cons_succ, Option.join_some]
    rw [ih]
    cases a with
    | none => rw [List.reduceOption_cons_of_none]; rfl
    | some a => rw [List.reduceOption_cons_of_some]; rfl

/-- Draining sends to the sink of a stage what the pipeline yields that is cut before this stage. -/
theorem Pipeline.filter_events_drain {stemmers : List (String → String)} {owned : List StemFilter}
    {w : Workspace} {p : Pipeline} {o : Options} {before rest : List Filter} {f : Filter}
    {r : Reporter} {sink : String} (hw : w.Sound stemmers owned) (hp : p.stemFilters ⊆ owned)
    (hfilters : p.filters = before ++ f :: rest)
    (hr : f.reporter? o.mode = some r) (hsink : r.sink = some sink)
    (hother : ∀ g ∈ before ++ rest, ∀ q, g.reporter? o.mode = some q → q.sink ≠ some sink)
    (text : String) :
    ((p.streamOfText o text).drain w).2.2.events.filter (fun e => e.sink? = some sink) =
      w.events.filter (fun e => e.sink? = some sink) ++
        (((p.cutAt before.length).streamOfText o text).drain w).1.map r.event := by
  have hlength : (p.fates o text w).length =
      ((p.cutAt before.length).fates o text w).length := by
    rw [p.length_fates_cutAt, fates, Stream.length_fates]
  rw [p.events_drain o text hw hp, List.filter_append, List.filter_flatMap, hlength]
  simp only [filter_lines_of_sink hfilters hr hsink hother]
  rw [flatMap_range_join, fates, Stream.reduceOption_fates]

/-- **Reports follow the tokens.** Whatever has been done in a session, an analysis reports nothing
before its first step, and after some steps it has reported about the tokens of the tokenizer up to
the one that became the last token found, in order, and about no other. About each of these it has
reported what the reporting stages see, in the order of the stages: a stage sees what the pipeline
makes of the token that is cut before this stage, and nothing where that pipeline drops it. Drained,
an analysis has reported about all tokens of the tokenizer; a sink to which one stage only reports
has got the tokens of the pipeline cut before this stage, each once. What a stage reports of a token
is the token as it stands: no other token has the same report, unless nothing but its weight differs
and this is written alike. -/
theorem reports_follow_tokens (stemmers : List (String → String)) (actions : List Action)
    (p : Pipeline) (o : Options) (input : Input) :
    let session := (Session.new stemmers).run actions
    let w := session.workspace
    p.stemFilters ⊆ session.filters →
    match input.decode with
    | .error e => p.analyze o input = .error e
    | .ok text =>
      let s := p.streamOfText o text
      let fates := p.fates o text w
      p.analyze o input = .ok s ∧
      (∀ n,
        let here := Producer.streams.after n w s
        let next := here.1.advance here.2
        here.1.pending = s.pending.drop (consumed n fates) ∧
        here.2.events = w.events ++ (List.range (consumed n fates)).flatMap (p.lines o text w) ∧
        (next.1 = true → ∃ place, consumed (n + 1) fates = place + 1 ∧
          fates[place]? = some (some next.2.1.record))) ∧
      (s.drain w).2.2.events = w.events ++ (List.range fates.length).flatMap (p.lines o text w) ∧
      (p.cutAt 0).fates o text w =
        (((Pipeline.ofTokenizer p.tokenizer).streamOfText o text).drain w).1.map some ∧
      (∀ stage,
        let seen := (p.cutAt stage).fates o text w
        seen.length = s.pending.length ∧
        seen.reduceOption = (((p.cutAt stage).streamOfText o text).drain w).1 ∧
        ∀ later place : Nat, stage ≤ later → seen[place]? = some none →
          ((p.cutAt later).fates o text w)[place]? = some none) ∧
      (∀ (r : Reporter) (t u : Token), r.event t = r.event u ↔
        { t with boost := u.boost } = u ∧
          Token.describeBoost t.boost = Token.describeBoost u.boost) ∧
      ∀ (before rest : List Filter) (f : Filter) (r : Reporter) (sink : String),
        p.filters = before ++ f :: rest → f.reporter? o.mode = some r → r.sink = some sink →
        (∀ g ∈ before ++ rest, ∀ q, g.reporter? o.mode = some q → q.sink ≠ some sink) →
        (s.drain w).2.2.events.filter (fun e => e.sink? = some sink) =
          w.events.filter (fun e => e.sink? = some sink) ++
            (((p.cutAt before.length).streamOfText o text).drain w).1.map r.event := by
  intro session w hp
  have hw : w.Sound stemmers session.filters := ((Session.Valid.new stemmers).run actions).sound
  cases hinput : input.decode with
  | error e =>
    dsimp only
    rw [Pipeline.analyze, hinput]
  | ok text =>
    refine ⟨?analyze, ?steps, p.events_drain o text hw hp, p.fates_cutAt_zero o text w, ?stages,
      Reporter.event_eq_iff, ?sinks⟩
    case analyze => rw [Pipeline.analyze, hinput]
    case steps =>
      intro n here next
      refine ⟨?_, p.events_after o text hw hp n, (p.streamOfText o text).exists_consumed_eq n w⟩
      dsimp only [here]
      rw [Stream.after_eq_fed, Stream.pending_fed]
      rfl
    case stages =>
      intro stage seen
      refine ⟨p.length_fates_cutAt o text stage w, Stream.reduceOption_fates w _, ?_⟩
      intro later place hle hdropped
      exact p.fates_eq_none_of_le o text hw hp hle hdropped
    case sinks =>
      intro before rest f r sink hfilters hr hsink hother
      exact Pipeline.filter_events_drain hw hp hfilters hr hsink hother text

/-- Two reports in a pipeline that drops a word and stems the others. Up to the first token that comes
out, the first report has seen two tokens and the second one, each as it stood there. -/
theorem reports_follow_the_dog :
    let stop : StopFilter := { words := WordSet.ofWords ["the"] }
    let f : StemFilter := { stemmer := .custom "hyphen" 0, cache := 0 }
    let cut : Filter := .report { sink := some "cut" }
    let kept : Filter :=
      .dispatch (.mode "index" (.report { sink := some "kept" }) (.otherwise .pass))
    let p : Pipeline :=
      ⟨"words", .charset (({} : CharMap).breakOn ' '), [cut, .stop stop, .stem f, kept]⟩
    let o : Options :=
      { mode := "index", positions := true, offsets := true, keepUnfiltered := true,
        attributes := Std.ExtTreeMap.ofList [("field", "title")] }
    let session := (Session.new [fun word => word ++ "-"]).run [.make f.stemmer]
    let w := session.workspace
    let s := p.streamOfText o "the dog barks"
    p.stemFilters ⊆ session.filters ∧
      (s.drain w).2.2.events.filter (fun e => e.sink? = some "kept") =
        w.events.filter (fun e => e.sink? = some "kept") ++
          (((p.cutAt 3).streamOfText o "the dog barks").drain w).1.map
            (Reporter.event { sink := some "kept" }) ∧
      (Producer.streams.after 1 w s).2.events = w.events ++
        (List.range (consumed 1 (p.fates o "the dog barks" w))).flatMap
          (p.lines o "the dog barks" w) ∧
      (Producer.streams.after 1 w s).2.events =
        [.line "cut" ("Token \x7b text: \"the\", original_text: Some(\"the\"), boost: 1.0, " ++
          "stopped: false, position: Some(0), start_char: Some(0), end_char: Some(3), " ++
          "attributes: \x7b\"field\": \"title\"\x7d, mode: \"index\", remove_stopwords: true \x7d"),
         .line "cut" ("Token \x7b text: \"dog\", original_text: Some(\"dog\"), boost: 1.0, " ++
          "stopped: false, position: Some(1), start_char: Some(4), end_char: Some(7), " ++
          "attributes: \x7b\"field\": \"title\"\x7d, mode: \"index\", remove_stopwords: true \x7d"),
         .line "kept" ("Token \x7b text: \"dog-\", original_text: Some(\"dog\"), boost: 1.0, " ++
          "stopped: false, position: Some(1), start_char: Some(4), end_char: Some(7), " ++
          "attributes: \x7b\"field\": \"title\"\x7d, mode: \"index\", remove_stopwords: true \x7d")] ∧
      (((p.cutAt 3).streamOfText o "the dog barks").drain w).1.map Token.text =
        ["dog-", "barks-"] := by
  intro stop f cut kept p o session w s
  have hp : p.stemFilters ⊆ session.filters := by decide
  obtain ⟨-, hsteps, -, -, -, -, hsinks⟩ :=
    reports_follow_tokens [fun word => word ++ "-"] [.make f.stemmer] p o (.text "the dog barks") hp
  have hother : ∀ g ∈ [cut, .stop stop, .stem f] ++ ([] : List Filter), ∀ q,
      g.reporter? o.mode = some q → q.sink ≠ some "kept" := by
    intro g hg q hq
    rw [List.append_nil, List.mem_cons, List.mem_cons, List.mem_singleton] at hg
    rcases hg with rfl | rfl | rfl
    · cases hq
      decide
    · cases hq
    · cases hq
  have hkept := hsinks [cut, .stop stop, .stem f] [] kept { sink := some "kept" } "kept" rfl rfl rfl
    hother
  exact ⟨hp, hkept, (hsteps 1).2.1, by decide +kernel, by decide +kernel⟩

end TextAnalysis
