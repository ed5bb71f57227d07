import TextAnalysis.Proofs.Sources
import TextAnalysis.Proofs.Dispatching

/-!
# Streams end, and stay at their end

Every source of tokens, with any filters attached to it one after the other, gives finitely many
tokens. The step that finds no further token is the last that changes anything: later steps find
none either, and leave the record, what the filters remember and the workspace as they are.

A producer is at rest when steps leave it as it is, whatever a consumer writes into its record
between them. Every layer of a stack notes in its own way that there is nothing left; what all have
in common is `Producer.Fused`: a step without a token leaves the producer at rest. A filter keeps
this (`Filter.fused_attach`), so a stack has it when its source does. From it, and from the bound on
the tokens to come, follows how every run ends (`Producer.Fused.exists_endsAfter`).
Main statement: `streams_end_and_stay_ended`.
-/

set_option autoImplicit false

namespace TextAnalysis

namespace Producer

variable {P Q : Producer}

/-! ## At rest -/

/-- A step finds no token and changes nothing, in any workspace, and neither does it when a consumer
has overwritten the record before, any number of times. -/
def AtRest (P : Producer) (s : P.State) : Prop :=
  ∀ (writes : List Token) (w : Workspace),
    let s' := writes.foldl (fun s t => P.write t s) s
    P.advance w s' = (false, s', w)

/-- A state at rest does not advance and stays. -/
theorem AtRest.advance {s : P.State} (h : P.AtRest s) (w : Workspace) :
    P.advance w s = (false, s, w) :=
  h [] w

/-- Writing into the record leaves a state at rest. -/
theorem AtRest.write {s : P.State} (h : P.AtRest s) (t : Token) : P.AtRest (P.write t s) :=
  fun writes w => h (t :: writes) w

/-- Steps do nothing to a state at rest. -/
theorem AtRest.after {s : P.State} (h : P.AtRest s) (w : Workspace) (n : Nat) :
    P.after n w s = (s, w) := by
  induction n with
  | zero => rfl
  | succ n ih => rw [Producer.after, h.advance w, ih]

/-- States that steps leave as they are, and that writes do not lead out of, are states of rest. -/
theorem atRest_of_closed (P : Producer) (D : P.State → Prop)
    (hadvance : ∀ s, D s → ∀ w, P.advance w s = (false, s, w))
    (hwrite : ∀ s, D s → ∀ t, D (P.write t s)) {s : P.State} (h : D s) : P.AtRest s := by
  intro writes w
  induction writes generalizing s with
  | nil => exact hadvance s h w
  | cons t writes ih => exact ih (hwrite s h t)

/-- A step that finds no token leaves the producer at rest. -/
def Fused (P : Producer) : Prop :=
  ∀ (w : Workspace) (s : P.State), (P.advance w s).1 = false → P.AtRest (P.advance w s).2.1

/-! ## How a run ends -/

/-- The first `n` steps find a token each, and no later one does. Only the first of these changes
anything: it leaves the producer at rest. -/
structure EndsAfter (P : Producer) (n : Nat) (w : Workspace) (s : P.State) : Prop where
  found : ∀ m, (P.advance (P.after m w s).2 (P.after m w s).1).1 = decide (m < n)
  still : ∀ k, P.after (n + 1 + k) w s = P.after (n + 1) w s
  atRest : P.AtRest (P.after (n + 1) w s).1

/-- A state that does not advance ends after no step. -/
theorem EndsAfter.zero (hP : P.Fused) {w : Workspace} {s : P.State}
    (h : (P.advance w s).1 = false) : P.EndsAfter 0 w s := by
  have hrest := hP w s h
  refine ⟨?_, ?_, hrest⟩
  · rintro (_ | m)
    · exact h
    · rw [Producer.after, hrest.after, hrest.advance]
      rfl
  · intro k
    rw [Nat.add_comm (0 + 1) k, Producer.after, hrest.after]
    rfl

/-- A state that advances ends one step later than the state behind it. -/
theorem EndsAfter.succ {n : Nat} {w : Workspace} {s : P.State} (h : (P.advance w s).1 = true)
    (hrest : P.EndsAfter n (P.advance w s).2.2 (P.advance w s).2.1) : P.EndsAfter (n + 1) w s := by
  refine ⟨?_, ?_, hrest.atRest⟩
  · rintro (_ | m)
    · rw [Producer.after, h]
      simp
    · rw [Producer.after, hrest.found m]
      simp
  · intro k
    have hlength : n + 1 + 1 + k = n + 1 + k + 1 := by omega
    rw [hlength]
    exact hrest.still k

/-- A fused producer ends, after no more tokens than it has to come. -/
theorem Fused.exists_endsAfter (hP : P.Fused) (w : Workspace) (s : P.State) :
    ∃ n, n ≤ P.remaining s ∧ P.EndsAfter n w s := by
  induction hr : P.remaining s using Nat.strongRecOn generalizing w s with
  | ind r ih =>
    cases h : (P.advance w s).1 with
    | false => exact ⟨0, Nat.zero_le _, .zero hP h⟩
    | true =>
      have hlt := P.remaining_advance w s h
      obtain ⟨n, hn, hends⟩ := ih _ (hr ▸ hlt) (P.advance w s).2.2 _ rfl
      exact ⟨n + 1, by omega, .succ h hends⟩

/-- Producers that show the same end after the same number of tokens. -/
theorem EndsAfter.eq_of_showSame {n m : Nat} {w : Workspace} {s : P.State} {t : Q.State}
    (hP : P.EndsAfter n w s) (hQ : Q.EndsAfter m w t) (h : ShowSame P Q w s t) : n = m := by
  have hfound : ∀ k, decide (k < n) = decide (k < m) := by
    intro k
    have hseen := (h (k + 1)).1
    rw [P.seen_succ, Q.seen_succ, (h k).1] at hseen
    have hlast := List.singleton_inj.mp (List.append_cancel_left hseen)
    rw [← hP.found k, ← hQ.found k]
    exact congrArg Prod.fst hlast
  have hn := hfound n
  have hm := hfound m
  simp only [decide_eq_decide] at hn hm
  omega

/-! ## Sources -/

/-- A source with its record. -/
@[reducible]
def sources : Producer where
  State := Token × Source
  record s := s.1
  write t s := (t, s.2)
  advance w s := (s.2.next.1.isSome, (s.2.next.1.elim s.1 (Update.apply s.1), s.2.next.2), w)
  remaining s := s.2.updates.length
  record_write _ _ := rfl
  remaining_write _ _ := rfl
  remaining_advance w s h := by
    obtain ⟨u, hu⟩ := Option.isSome_iff_exists.mp h
    obtain ⟨rest, hupdates⟩ := List.head?_eq_some_iff.mp (s.2.next_eq.1.symm.trans hu)
    rw [s.2.next_eq.2, hupdates, List.tail_cons, List.length_cons]
    exact Nat.lt_succ_self _
  advance_ended w s h w' := by
    have hnone : s.2.next.1 = none := by simpa using h
    rw [Source.next_next hnone]
    rfl

/-- Sources that have ended stay ended. -/
theorem fused_sources : sources.Fused := by
  intro w s h
  have hnone : s.2.next.1 = none := by simpa using h
  refine atRest_of_closed sources (fun s => s.2.next = (none, s.2)) ?_ ?_ (Source.next_next hnone)
  · rintro ⟨t, source⟩ hs w
    change source.next = (none, source) at hs
    change (source.next.1.isSome, (source.next.1.elim t (Update.apply t), source.next.2), w) = _
    rw [hs]
    rfl
  · intro s hs t
    exact hs

/-- A source with its record is like the stream that has its updates before it. -/
theorem alike_sources (t : Token) (s : Source) :
    Alike sources streams (t, s) ⟨t, s.updates, []⟩ := by
  refine ⟨fun a b => b = ⟨a.1, a.2.updates, []⟩, ⟨?_, ?_, ?_⟩, rfl⟩
  · rintro a b rfl
    rfl
  · rintro a b rfl x
    rfl
  · rintro ⟨t, s⟩ b rfl w
    obtain ⟨hfirst, hrest⟩ := s.next_eq
    have hstep : sources.advance w (t, s) =
        (s.updates.head?.isSome, (s.updates.head?.elim t (Update.apply t), s.next.2), w) := by
      rw [← hfirst]
    rw [hstep]
    change Agree _ _ (Stream.advanceFrom w t [] s.updates)
    cases hupdates : s.updates with
    | nil =>
      rw [hupdates] at hrest
      exact ⟨rfl, congrArg (Stream.mk t · []) hrest.symm, rfl⟩
    | cons u rest =>
      rw [hupdates] at hrest
      exact ⟨rfl, congrArg (Stream.mk (u.apply t) · []) hrest.symm, rfl⟩

/-- A stream with nothing pending is at rest. -/
theorem atRest_streams {s : Stream} (h : s.pending = []) : streams.AtRest s :=
  atRest_of_closed streams (fun s => s.pending = [])
    (fun _ hs w => Stream.advance_of_pending_eq_nil hs w) (fun _ hs _ => hs) h

/-- Streams that have ended stay ended. -/
theorem fused_streams : streams.Fused :=
  fun _ _ h => atRest_streams (Stream.pending_of_advance_eq_false h)

/-! ## Filters keep producers fused -/

/-- A worker is at rest with the producer at which it pulls. -/
theorem AtRest.behind {s : P.State} (h : P.AtRest s) (k : Worker) : P.behind.AtRest (s, k) := by
  refine atRest_of_closed P.behind (fun a => P.AtRest a.1) ?_ ?_ h
  · rintro ⟨s, k⟩ hs w
    have hstep := P.pull_of_advance_eq_false (w := w) k (by rw [hs.advance w])
    rw [hs.advance w] at hstep
    exact hstep
  · rintro ⟨s, k⟩ hs t
    exact hs.write t

/-- A filter on what stays ended stays ended, -/
theorem Fused.behind (hP : P.Fused) : P.behind.Fused := by
  rintro w ⟨s, k⟩ h
  change P.behind.AtRest (P.pull w s k).2.1
  change (P.pull w s k).1 = false at h
  fun_induction P.pull w s k with
  | case1 => cases h
  | case2 w s k hfound p next hkept ih => exact ih h
  -- The last pull has found no token, whatever the worker dropped before.
  | case3 w s k hfound => exact (hP w s (Bool.not_eq_true _ ▸ hfound)).behind k

/-- A producer that gives back no token is at rest with the producer itself. -/
theorem AtRest.replay {s : P.State} (h : P.AtRest s) : P.replay.AtRest (false, s) := by
  refine atRest_of_closed P.replay (fun a => a.1 = false ∧ P.AtRest a.2) ?_ ?_ ⟨rfl, h⟩
  · rintro ⟨b, s⟩ ⟨rfl, hs⟩ w
    change ((P.advance w s).1, (false, (P.advance w s).2.1), (P.advance w s).2.2) = _
    rw [hs.advance w]
    rfl
  · rintro ⟨b, s⟩ ⟨rfl, hs⟩ t
    exact ⟨rfl, hs.write t⟩

/-- and so does a replay of it. -/
theorem Fused.replay (hP : P.Fused) : P.replay.Fused := by
  rintro w ⟨b, s⟩ h
  cases b with
  | true => cases h
  | false => exact (hP w s h).replay

end Producer

namespace Attached

open Producer

variable {P : Producer} {sub : String → Attached P.replay}

/-- A dispatching filter that has found no first token is at rest with its producer. -/
theorem atRest_ended {s : P.State} (h : P.AtRest s) :
    (choosing P sub).producer.AtRest (Choice.ended s) := by
  refine atRest_of_closed (choosing P sub).producer
    (fun a => ∃ s, a = Choice.ended s ∧ P.AtRest s) ?_ ?_ ⟨s, rfl, h⟩
  · rintro _ ⟨s, rfl, hs⟩ w
    change ((P.advance w s).1, Choice.ended (P.advance w s).2.1, (P.advance w s).2.2) = _
    rw [hs.advance w]
    rfl
  · rintro _ ⟨s, rfl, hs⟩ t
    exact ⟨_, rfl, hs.write t⟩

/-- A dispatching filter is at rest with what it has attached. -/
theorem atRest_active {mode : String} {s : (sub mode).producer.State}
    (h : (sub mode).producer.AtRest s) :
    (choosing P sub).producer.AtRest (Choice.active mode s) := by
  refine atRest_of_closed (choosing P sub).producer
    (fun a => ∃ s, a = Choice.active mode s ∧ (sub mode).producer.AtRest s) ?_ ?_ ⟨s, rfl, h⟩
  · rintro _ ⟨s, rfl, hs⟩ w
    have hstep := hs.advance w
    change (((sub mode).producer.advance w s).1,
      Choice.active mode ((sub mode).producer.advance w s).2.1,
      ((sub mode).producer.advance w s).2.2) = _
    rw [hstep]
    rfl
  · rintro _ ⟨s, rfl, hs⟩ t
    exact ⟨_, rfl, hs.write t⟩

/-- A choice stays ended where its source and all that it may choose do. -/
theorem fused_choosing (hP : P.Fused) (hsub : ∀ mode, (sub mode).producer.Fused) :
    (choosing P sub).producer.Fused := by
  rintro w (s | s | ⟨mode, s⟩) h
  · change ((Choice.pending s : Choice P sub).advance w).1 = false at h
    change (choosing P sub).producer.AtRest ((Choice.pending s : Choice P sub).advance w).2.1
    cases hfound : (P.advance w s).1 with
    | false =>
      rw [Choice.advance_pending_of_eq_false hfound]
      exact atRest_ended (hP w s hfound)
    | true =>
      rw [Choice.advance_pending_of_eq_true hfound] at h ⊢
      exact atRest_active (hsub _ _ _ h)
  · exact atRest_ended (hP w s h)
  · exact atRest_active (hsub mode w s h)

/-- Of two attachments that stay ended, either does. -/
theorem fused_ite {c : Prop} [Decidable c] {A B : Attached P} (hA : A.producer.Fused)
    (hB : B.producer.Fused) : (if c then A else B).producer.Fused := by
  split
  · exact hA
  · exact hB

end Attached

mutual

/-- A filter attached to a fused producer makes a fused producer. -/
theorem Filter.fused_attach (keepForms : Bool) (P : Producer) (hP : P.Fused) :
    ∀ f : Filter, (f.attach keepForms P).producer.Fused
  | .dispatch d =>
    Attached.fused_choosing hP fun mode => d.fused_attach keepForms mode P.replay hP.replay
  | .pass | .lowercase | .strip => hP.behind
  | .charset _ | .stop _ | .stem _ | .report _ => hP.behind

/-- The filter for a mode attached to a fused producer makes a fused producer. -/
theorem Dispatch.fused_attach (keepForms : Bool) (mode : String) (P : Producer) (hP : P.Fused) :
    ∀ d : Dispatch, (d.attach keepForms mode P).producer.Fused
  | .otherwise f => Attached.fused_ite hP (f.fused_attach keepForms P hP)
  | .mode _ f rest =>
    Attached.fused_ite (Attached.fused_ite hP (f.fused_attach keepForms P hP))
      (rest.fused_attach keepForms mode P hP)

end

/-! ## Stacks of filters -/

/-- What can be put on a stream of tokens: a filter, or what drops the tokens that are marked as
stopped. -/
inductive Layer where
  | filter (keepForms : Bool) (f : Filter)
  | unstopped

namespace Layer

open Producer

/-- Puts a layer on a producer. -/
def attach : Layer → (P : Producer) → Attached P
  | filter keepForms f, P => f.attach keepForms P
  | unstopped, P => .working P .unstopped

/-- Puts a layer on a stream of the library. -/
def on (s : Stream) : Layer → Stream
  | filter keepForms f => s.through keepForms f
  | unstopped => s.unstopped

/-- Puts layers on a producer one after the other, the first of the list next to the producer. -/
def stack : List Layer → (P : Producer) → Attached P
  | [], P => .bare P
  | l :: rest, P =>
    let A := l.attach P
    let B := stack rest A.producer
    ⟨B.producer, fun s => B.start (A.start s),
      fun s => Nat.le_trans (B.remaining_start _) (A.remaining_start s)⟩

/-- A layer on what stays ended stays ended, -/
theorem fused_attach {P : Producer} (hP : P.Fused) (l : Layer) : (l.attach P).producer.Fused := by
  cases l with
  | filter keepForms f => exact f.fused_attach keepForms P hP
  | unstopped => exact hP.behind

/-- and so does a stack of layers. -/
theorem fused_stack {P : Producer} (hP : P.Fused) (layers : List Layer) :
    (stack layers P).producer.Fused := by
  induction layers generalizing P with
  | nil => exact hP
  | cons l rest ih => exact ih (l.fused_attach hP)

/-- A layer on a producer takes the steps of the stream with the layer on it, where the producer
takes those of the stream. -/
theorem stepAlike_attach {P : Producer} {w : Workspace} {s : P.State} {t : Stream}
    (h : StepAlike P streams w s w t) (l : Layer) :
    StepAlike (l.attach P).producer streams w ((l.attach P).start s) w (l.on t) := by
  cases l with
  | filter keepForms f =>
    exact (f.congruent_attach keepForms P streams w w s t h).trans
      (f.stepAlike_attach_streams keepForms w t)
  | unstopped =>
    exact (Attached.congruent_working P streams .unstopped w w s t h).trans
      ((alike_behind_streams t .unstopped).stepAlike w)

/-- A stack of layers steps as the stream with these layers on it. -/
theorem stepAlike_stack {P : Producer} {w : Workspace} {s : P.State} {t : Stream}
    (h : StepAlike P streams w s w t) (layers : List Layer) :
    StepAlike (stack layers P).producer streams w ((stack layers P).start s) w
      (layers.foldl on t) := by
  -- Producer and stream change with every layer; that their next steps agree is what is kept.
  induction layers generalizing P t with
  | nil => exact h
  | cons l rest ih => exact ih (stepAlike_attach h l)

end Layer

open Producer

/-- **Streams end, and stay at their end.** Let any layers be put on any source. From every state
the stack comes to its end after finitely many tokens, of which there are no more than the source
has to come: all later steps find none, and from the second of them on nothing is changed, neither
the record nor what the layers remember nor the workspace, also when the record is overwritten
between the steps. The streams of the library end in this way, from every state. Opened on the same
source with the same layers, they end after the same number of tokens as the stack and show the same
at every step before and after. -/
theorem streams_end_and_stay_ended :
    (∀ (layers : List Layer) (w : Workspace),
      let stacked := (Layer.stack layers sources).producer
      ∀ s : stacked.State, ∃ n, n ≤ stacked.remaining s ∧ stacked.EndsAfter n w s) ∧
    (∀ (w : Workspace) (s : Stream), ∃ n, n ≤ s.pending.length ∧ streams.EndsAfter n w s) ∧
    ∀ (x : Opening) (layers : List Layer) (w : Workspace),
      let A := Layer.stack layers sources
      let stream := layers.foldl Layer.on x.stream
      ShowSame A.producer streams w (A.start x.start) stream ∧
      ∃ n, n ≤ x.stream.pending.length ∧ A.producer.EndsAfter n w (A.start x.start) ∧
        streams.EndsAfter n w stream := by
  refine ⟨?stacked, ?library, ?opened⟩
  case stacked =>
    intro layers w P s
    exact (Layer.fused_stack fused_sources layers).exists_endsAfter w s
  case library =>
    intro w s
    exact fused_streams.exists_endsAfter w s
  case opened =>
    intro x layers w A stream
    have hstep : StepAlike sources streams w x.start w x.stream := by
      rw [x.stream_eq]
      exact (alike_sources _ _).stepAlike w
    have hshow : ShowSame A.producer streams w (A.start x.start) stream :=
      (Layer.stepAlike_stack hstep layers).showSame
    obtain ⟨n, hn, hends⟩ :=
      (Layer.fused_stack fused_sources layers).exists_endsAfter w (A.start x.start)
    obtain ⟨m, -, hstream⟩ := fused_streams.exists_endsAfter w stream
    have hbound : n ≤ x.stream.pending.length := by
      rw [x.stream_eq]
      exact Nat.le_trans hn (A.remaining_start x.start)
    refine ⟨hshow, n, hbound, hends, ?_⟩
    rw [hends.eq_of_showSame hstream hshow]
    exact hstream

end TextAnalysis
