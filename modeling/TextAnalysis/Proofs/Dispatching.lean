import TextAnalysis.Proofs.Producer.Alike

/-!
# Dispatching by mode

A dispatching filter cannot be told from the filter that it selects for the mode of the first token:
every step has a token exactly when the other has one, with the same record, before the end and
after it, and leaves the same workspace.

Two accounts of a dispatching filter are held together here. Attached to a producer, it pulls the
first token, gives it back and attaches the selected filter, which may drop that token or be a
dispatching filter again. In a stream it waits and then becomes a worker. `stepAlike_choosing` is about
the first account, `stepAlike_attach_streams` joins the two. Main statement:
`dispatch_shows_selected`.
-/

set_option autoImplicit false

namespace TextAnalysis

/-! ## In a stream -/

namespace Stream

/-- A filter behind a stream that has ended has nothing to do. -/
theorem advance_behind_of_eq_false {w : Workspace} {s : Stream} (r : Running)
    (h : (s.advance w).1 = false) :
    (s.behind r).advance w = (false, (s.advance w).2.1.behind r, (s.advance w).2.2) := by
  rw [advance_behind]
  split
  · next heq => rw [heq]
  · next heq => rw [heq] at h; cases h

/-- A filter behind a stream that advances takes its token. -/
theorem advance_behind_of_eq_true {w : Workspace} {s : Stream} (r : Running)
    (h : (s.advance w).1 = true) :
    (s.behind r).advance w =
      let p := r.step (s.advance w).2.2 (s.advance w).2.1.record
      let next := { (s.advance w).2.1 with record := p.token }.behind p.filter
      if p.kept then (true, next, p.workspace) else next.advance p.workspace := by
  rw [advance_behind]
  split
  · next heq => rw [heq] at h; cases h
  · next heq => rw [heq]

/-- Two filters that would do the same work on the next token take the same next step. -/
theorem advance_behind_congr {w : Workspace} {s : Stream} {r q : Running}
    (h : (s.advance w).1 = true)
    (hrq : r.worker (s.advance w).2.1.record.mode = q.worker (s.advance w).2.1.record.mode) :
    (s.behind r).advance w = (s.behind q).advance w := by
  have hstep : r.step (s.advance w).2.2 (s.advance w).2.1.record =
      q.step (s.advance w).2.2 (s.advance w).2.1.record := by
    simp only [Running.step, hrq]
  rw [advance_behind_of_eq_true r h, advance_behind_of_eq_true q h, hstep]

end Stream

namespace Producer

/-- A worker that pulls at a stream does the steps of the stream with the worker behind it. -/
theorem agree_pull_streams (w : Workspace) (s : Stream) (k : Worker) :
    Agree (fun a t => t = a.1.behind (.working a.2)) (streams.pull w s k)
      ((s.behind (.working k)).advance w) := by
  induction hn : s.pending.length using Nat.strongRecOn generalizing w s k with
  | ind n ih =>
    cases hs : (s.advance w).1 with
    | false =>
      rw [streams.pull_of_advance_eq_false k hs, Stream.advance_behind_of_eq_false _ hs]
      exact ⟨rfl, rfl, rfl⟩
    | true =>
      have hlt := Stream.pending_length_lt_of_advance hs
      rw [streams.pull_of_advance_eq_true k hs, Stream.advance_behind_of_eq_true _ hs]
      change Agree _ (if (k.step (s.advance w).2.2 (s.advance w).2.1.record).kept then _ else _)
        (if (k.step (s.advance w).2.2 (s.advance w).2.1.record).kept then _ else _)
      by_cases hkept : (k.step (s.advance w).2.2 (s.advance w).2.1.record).kept = true
      · rw [if_pos hkept, if_pos hkept]
        exact ⟨rfl, rfl, rfl⟩
      · rw [if_neg hkept, if_neg hkept]
        exact ih _ (hn ▸ hlt) _ _ _ rfl

/-- A worker attached to a stream is like the stream with the worker behind it. -/
theorem alike_behind_streams (s : Stream) (k : Worker) :
    Alike streams.behind streams (s, k) (s.behind (.working k)) := by
  refine ⟨fun a t => t = a.1.behind (.working a.2), ⟨?_, ?_, ?_⟩, rfl⟩
  · rintro ⟨s, k⟩ t rfl
    rfl
  · rintro ⟨s, k⟩ t rfl x
    rfl
  · rintro ⟨s, k⟩ t rfl w
    exact agree_pull_streams w s k

/-- A worker that leaves every token as it is makes no difference to a stream. -/
theorem alike_behind_pass (s : Stream) :
    Alike streams streams (s.behind (.working .pass)) s := by
  refine ⟨fun a t => a = t.behind (.working .pass), ⟨?_, ?_, ?_⟩, rfl⟩
  · rintro a t rfl
    rfl
  · rintro a t rfl x
    rfl
  · rintro a t rfl w
    change Agree _ ((t.behind (.working .pass)).advance w) (t.advance w)
    cases ht : (t.advance w).1 with
    | false =>
      rw [Stream.advance_behind_of_eq_false _ ht]
      exact ⟨ht.symm, rfl, rfl⟩
    | true =>
      rw [Stream.advance_behind_of_eq_true _ ht]
      exact ⟨ht.symm, rfl, rfl⟩

/-- A stream that has ended is like itself with any filter behind it. -/
theorem alike_behind_of_ended {s : Stream} (h : s.pending = []) (r : Running) :
    Alike streams streams s (s.behind r) := by
  refine ⟨fun a t => t = a.behind r ∧ a.pending = [], ⟨?_, ?_, ?_⟩, rfl, h⟩
  · rintro a t ⟨rfl, -⟩
    rfl
  · rintro a t ⟨rfl, ha⟩ x
    exact ⟨rfl, ha⟩
  · rintro a t ⟨rfl, ha⟩ w
    change Agree _ (a.advance w) ((a.behind r).advance w)
    have hbehind : (a.behind r).pending = [] := ha
    rw [Stream.advance_of_pending_eq_nil ha, Stream.advance_of_pending_eq_nil hbehind]
    exact ⟨rfl, ⟨rfl, ha⟩, rfl⟩

end Producer

/-- Once there is a first token, a dispatching filter in a stream takes the step of the filter that
is selected for its mode, or of the bare stream where that filter is passed over. -/
theorem Stream.stepAlike_through_dispatch (keepForms : Bool) (d : Dispatch) {w : Workspace}
    {s : Stream} (h : (s.advance w).1 = true) :
    Producer.StepAlike .streams .streams w (s.through keepForms (.dispatch d)) w
      (if keepForms && (d.select (s.advance w).2.1.record.mode).isMorph then s
        else s.through keepForms (d.select (s.advance w).2.1.record.mode)) := by
  have hsettle := d.settle_eq keepForms (s.advance w).2.1.record.mode
  by_cases hskip : (keepForms && (d.select (s.advance w).2.1.record.mode).isMorph) = true
  · rw [if_pos hskip] at hsettle ⊢
    have hstep : (s.through keepForms (.dispatch d)).advance w =
        (s.behind (.working .pass)).advance w :=
      advance_behind_congr h hsettle
    exact (Producer.StepAlike.of_eq hstep).trans ((Producer.alike_behind_pass s).stepAlike w)
  · rw [if_neg hskip] at hsettle ⊢
    have hstep : (s.through keepForms (.dispatch d)).advance w =
        (s.through keepForms (d.select (s.advance w).2.1.record.mode)).advance w :=
      advance_behind_congr h (hsettle.trans (Running.worker_ofFilter _ _ _).symm)
    exact Producer.StepAlike.of_eq hstep

/-! ## Attached to a producer -/

namespace Attached

open Producer

variable {P : Producer} {sub : String → Attached P.replay}

/-- Once the choice is made, a dispatching filter is like what it has attached. -/
theorem alike_active (mode : String) (s : (sub mode).producer.State) :
    Alike (choosing P sub).producer (sub mode).producer (Choice.active mode s) s := by
  refine ⟨fun a b => a = Choice.active mode b, ⟨?_, ?_, ?_⟩, rfl⟩
  · rintro a b rfl
    rfl
  · rintro a b rfl x
    rfl
  · rintro a b rfl w
    exact ⟨rfl, rfl, rfl⟩

/-- A choice whose source has ended shows what its source shows. -/
theorem alike_ended (s : P.State) : Alike (choosing P sub).producer P (Choice.ended s) s := by
  refine ⟨fun a b => a = Choice.ended b, ⟨?_, ?_, ?_⟩, rfl⟩
  · rintro a b rfl
    rfl
  · rintro a b rfl x
    rfl
  · rintro a b rfl w
    exact ⟨rfl, rfl, rfl⟩

/-- Two attachments that step alike do so under either outcome of a condition. -/
theorem stepAlike_ite {c : Prop} [Decidable c] {A B : Attached P} {w : Workspace}
    {s u v : P.State} (hA : StepAlike A.producer P w (A.start s) w u)
    (hB : StepAlike B.producer P w (B.start s) w v) :
    StepAlike (if c then A else B).producer P w ((if c then A else B).start s)
      w (if c then u else v) := by
  by_cases hc : c
  · rw [if_pos hc, if_pos hc]
    exact hA
  · rw [if_neg hc, if_neg hc]
    exact hB

end Attached

open Producer Attached

/-- Once there is a first token, a dispatching filter takes the step of what it attaches for the mode
of that token: giving the token back undoes the pull that was needed to see its mode. -/
theorem Dispatch.stepAlike_choosing (keepForms : Bool) (d : Dispatch) (P : Producer) {w : Workspace}
    {s : P.State} (h : (P.advance w s).1 = true) :
    let mode := (P.record (P.advance w s).2.1).mode
    StepAlike ((Filter.dispatch d).attach keepForms P).producer (d.attach keepForms mode P).producer
      w (((Filter.dispatch d).attach keepForms P).start s)
      w ((d.attach keepForms mode P).start s) := by
  intro mode
  obtain ⟨hfound, hstate, hworkspace⟩ :=
    d.congruent_attach keepForms mode P.replay P _ _ _ _ (stepAlike_again h)
  change Agree _ ((Choice.pending s : Choice P _).advance w) _
  rw [Choice.advance_pending_of_eq_true h]
  exact ⟨hfound, (alike_active mode _).trans hstate, hworkspace⟩

/-- Where there is no first token, a dispatching filter has none. -/
theorem Dispatch.advance_attach_of_eq_false (keepForms : Bool) (d : Dispatch) (P : Producer)
    {w : Workspace} {s : P.State} (h : (P.advance w s).1 = false) :
    ((Filter.dispatch d).attach keepForms P).producer.advance w
        (((Filter.dispatch d).attach keepForms P).start s) =
      (false, Choice.ended (P.advance w s).2.1, (P.advance w s).2.2) :=
  Choice.advance_pending_of_eq_false h

mutual

/-- A filter attached to a stream takes the steps of the stream with the filter behind it. -/
theorem Filter.stepAlike_attach_streams (keepForms : Bool) (w : Workspace) (s : Stream) :
    ∀ f : Filter, StepAlike (f.attach keepForms streams).producer streams
      w ((f.attach keepForms streams).start s) w (s.through keepForms f)
  | .dispatch d => by
    cases h : (s.advance w).1 with
    | false =>
      have hended := Stream.pending_of_advance_eq_false h
      change Agree _ _ ((s.behind (.waiting keepForms d)).advance w)
      rw [d.advance_attach_of_eq_false keepForms streams h, Stream.advance_behind_of_eq_false _ h]
      exact ⟨rfl, (alike_ended _).trans (alike_behind_of_ended hended _), rfl⟩
    | true =>
      exact (d.stepAlike_choosing keepForms streams h).trans
        ((d.stepAlike_attach_streams keepForms _ w s).trans
          (Stream.stepAlike_through_dispatch keepForms d h).symm)
  | .pass | .lowercase | .strip => (alike_behind_streams s _).stepAlike w
  | .charset _ | .stop _ | .stem _ | .report _ => (alike_behind_streams s _).stepAlike w

/-- What is attached to a stream for a mode takes the steps of the stream with the selected filter
behind it. -/
theorem Dispatch.stepAlike_attach_streams (keepForms : Bool) (mode : String) (w : Workspace)
    (s : Stream) : ∀ d : Dispatch,
      StepAlike (d.attach keepForms mode streams).producer streams
        w ((d.attach keepForms mode streams).start s)
        w (if keepForms && (d.select mode).isMorph then s
          else s.through keepForms (d.select mode))
  | .otherwise f =>
    stepAlike_ite ((Alike.refl streams s).stepAlike w) (f.stepAlike_attach_streams keepForms w s)
  | .mode m f rest => by
    rw [Dispatch.attach, Dispatch.select]
    by_cases hmode : m = mode
    · rw [if_pos hmode, if_pos hmode]
      exact stepAlike_ite ((Alike.refl streams s).stepAlike w)
        (f.stepAlike_attach_streams keepForms w s)
    · rw [if_neg hmode, if_neg hmode]
      exact rest.stepAlike_attach_streams keepForms mode w s

end

/-- **A dispatching filter shows what the filter shows that it selects.** Attached to any producer:
where the producer has no token, no step ever has one; otherwise, with the mode of the first token,
every number of steps shows what the selected filter shows when it is attached instead, or the bare
producer where word forms are kept and the selected filter changes them, and leaves the same
workspace. The same holds of the streams of the library, which show for every filter what attaching
it to the stream shows. -/
theorem dispatch_shows_selected (keepForms : Bool) (d : Dispatch) (w : Workspace) :
    (∀ (P : Producer) (s : P.State),
      let dispatching := (Filter.dispatch d).attach keepForms P
      let selected := d.select (P.record (P.advance w s).2.1).mode
      let attached := selected.attach keepForms P
      ((P.advance w s).1 = false →
        ∀ n, ∀ o ∈ dispatching.producer.seen n w (dispatching.start s), o.1 = false) ∧
      ((P.advance w s).1 = true →
        if keepForms && selected.isMorph then
          ShowSame dispatching.producer P w (dispatching.start s) s
        else
          ShowSame dispatching.producer attached.producer w (dispatching.start s)
            (attached.start s))) ∧
    (∀ s : Stream,
      let selected := d.select (s.advance w).2.1.record.mode
      ((s.advance w).1 = false →
        ∀ n, ∀ o ∈ streams.seen n w (s.through keepForms (.dispatch d)), o.1 = false) ∧
      ((s.advance w).1 = true →
        ShowSame streams streams w (s.through keepForms (.dispatch d))
          (if keepForms && selected.isMorph then s else s.through keepForms selected))) ∧
    ∀ (f : Filter) (s : Stream),
      let attached := f.attach keepForms streams
      ShowSame attached.producer streams w (attached.start s) (s.through keepForms f) := by
  refine ⟨?producers, ?library, ?joined⟩
  case producers =>
    intro P s
    refine ⟨fun h n => ?_, fun h => ?_⟩
    · refine Producer.seen_of_ended _ ?_ n
      rw [d.advance_attach_of_eq_false keepForms P h]
    · have hstep := d.stepAlike_choosing keepForms P h
      dsimp only at hstep ⊢
      rw [d.attach_eq] at hstep
      by_cases hskip :
          (keepForms && (d.select (P.record (P.advance w s).2.1).mode).isMorph) = true
      · rw [if_pos hskip] at hstep ⊢
        exact hstep.showSame
      · rw [if_neg hskip] at hstep ⊢
        exact hstep.showSame
  case library =>
    intro s selected
    refine ⟨fun h n => ?_, fun h => ?_⟩
    · refine Producer.seen_of_ended streams ?_ n
      change ((s.behind (.waiting keepForms d)).advance w).1 = false
      rw [Stream.advance_behind_of_eq_false _ h]
    · exact (Stream.stepAlike_through_dispatch keepForms d h).showSame
  case joined =>
    intro f s attached
    exact (f.stepAlike_attach_streams keepForms w s).showSame

end TextAnalysis
