import TextAnalysis.Proofs.Producer

/-!
# Producers that are alike

Two producers, each in some state, are alike if a consumer cannot tell them apart: some relation
between their states holds of these, and steps and writes keep it. The relation that is given is an
invariant of running both side by side.

Main statements: `StepAlike.showSame` (producers whose next steps agree show the same) and
`Filter.congruent_attach` (a filter does not tell such producers apart).
-/

set_option autoImplicit false

namespace TextAnalysis

/-- The results of two steps agree: both have a token or neither, the states are related, and the
workspaces are the same. -/
def Agree {α β : Type} (R : α → β → Prop) (a : Bool × α × Workspace) (b : Bool × β × Workspace) :
    Prop :=
  a.1 = b.1 ∧ R a.2.1 b.2.1 ∧ a.2.2 = b.2.2

/-- States that agree in a relation agree in any weaker one. -/
theorem Agree.mono {α β : Type} {R S : α → β → Prop} (hRS : ∀ x y, R x y → S x y)
    {a : Bool × α × Workspace} {b : Bool × β × Workspace} (h : Agree R a b) : Agree S a b :=
  ⟨h.1, hRS _ _ h.2.1, h.2.2⟩

namespace Producer

/-- A relation between the states of two producers that keeps them in step. -/
structure Bisimulation (P Q : Producer) (R : P.State → Q.State → Prop) : Prop where
  record : ∀ {s t}, R s t → P.record s = Q.record t
  write : ∀ {s t}, R s t → ∀ x, R (P.write x s) (Q.write x t)
  advance : ∀ {s t}, R s t → ∀ w, Agree R (P.advance w s) (Q.advance w t)

/-- Two states of producers that no consumer can tell apart. -/
def Alike (P Q : Producer) (s : P.State) (t : Q.State) : Prop := ∃ R, Bisimulation P Q R ∧ R s t

variable {P Q T : Producer}

/-- What some bisimulation relates is related by the largest one. -/
theorem bisimulation_alike (P Q : Producer) : Bisimulation P Q (Alike P Q) where
  record := by
    rintro s t ⟨R, hR, hst⟩
    exact hR.record hst
  write := by
    rintro s t ⟨R, hR, hst⟩ x
    exact ⟨R, hR, hR.write hst x⟩
  advance := by
    rintro s t ⟨R, hR, hst⟩ w
    exact (hR.advance hst w).mono fun _ _ h => ⟨R, hR, h⟩

/-- Every state is like itself, -/
theorem Alike.refl (P : Producer) (s : P.State) : Alike P P s s := by
  refine ⟨Eq, ⟨?_, ?_, ?_⟩, rfl⟩
  · rintro s t rfl
    rfl
  · rintro s t rfl x
    rfl
  · rintro s t rfl w
    exact ⟨rfl, rfl, rfl⟩

/-- a state is like those that are like it, -/
theorem Alike.symm {s : P.State} {t : Q.State} (h : Alike P Q s t) : Alike Q P t s := by
  obtain ⟨R, hR, hst⟩ := h
  refine ⟨fun t s => R s t, ⟨?_, ?_, ?_⟩, hst⟩
  · intro t s h
    exact (hR.record h).symm
  · intro t s h x
    exact hR.write h x
  · intro t s h w
    obtain ⟨hfound, hstate, hworkspace⟩ := hR.advance h w
    exact ⟨hfound.symm, hstate, hworkspace.symm⟩

/-- and what is like a state like a third one is like the third one. -/
theorem Alike.trans {s : P.State} {t : Q.State} {u : T.State} (hst : Alike P Q s t)
    (htu : Alike Q T t u) : Alike P T s u := by
  refine ⟨fun s u => ∃ t, Alike P Q s t ∧ Alike Q T t u, ⟨?_, ?_, ?_⟩, t, hst, htu⟩
  · rintro s u ⟨t, hst, htu⟩
    exact ((bisimulation_alike P Q).record hst).trans ((bisimulation_alike Q T).record htu)
  · rintro s u ⟨t, hst, htu⟩ x
    exact ⟨Q.write x t, (bisimulation_alike P Q).write hst x,
      (bisimulation_alike Q T).write htu x⟩
  · rintro s u ⟨t, hst, htu⟩ w
    obtain ⟨hfound, hstate, hworkspace⟩ := (bisimulation_alike P Q).advance hst w
    obtain ⟨hfound', hstate', hworkspace'⟩ := (bisimulation_alike Q T).advance htu w
    exact ⟨hfound.trans hfound', ⟨_, hstate, hstate'⟩, hworkspace.trans hworkspace'⟩

/-- The next steps of two producers, each in some state and workspace, agree. The states themselves
need not be alike: one of the producers may have taken the step already. -/
def StepAlike (P Q : Producer) (w : Workspace) (s : P.State) (w' : Workspace) (t : Q.State) : Prop :=
  Agree (Alike P Q) (P.advance w s) (Q.advance w' t)

/-- Alike states take alike steps. -/
theorem Alike.stepAlike {s : P.State} {t : Q.State} (h : Alike P Q s t) (w : Workspace) :
    StepAlike P Q w s w t :=
  (bisimulation_alike P Q).advance h w

/-- Two steps that are equal are alike. -/
theorem StepAlike.of_eq {w w' : Workspace} {s t : P.State} (h : P.advance w s = P.advance w' t) :
    StepAlike P P w s w' t := by
  unfold StepAlike
  rw [h]
  exact ⟨rfl, .refl P _, rfl⟩

/-- Alike steps may be exchanged, -/
theorem StepAlike.symm {w w' : Workspace} {s : P.State} {t : Q.State}
    (h : StepAlike P Q w s w' t) : StepAlike Q P w' t w s :=
  ⟨h.1.symm, h.2.1.symm, h.2.2.symm⟩

/-- and chained. -/
theorem StepAlike.trans {w w' w'' : Workspace} {s : P.State} {t : Q.State} {u : T.State}
    (hst : StepAlike P Q w s w' t) (htu : StepAlike Q T w' t w'' u) : StepAlike P T w s w'' u :=
  ⟨hst.1.trans htu.1, hst.2.1.trans htu.2.1, hst.2.2.trans htu.2.2⟩

/-- Producers whose next steps agree show the same. -/
theorem StepAlike.showSame {w : Workspace} {s : P.State} {t : Q.State}
    (h : StepAlike P Q w s w t) : ShowSame P Q w s t := by
  intro n
  induction n generalizing w s t with
  | zero => exact ⟨rfl, rfl⟩
  | succ n ih =>
    obtain ⟨hfound, hstate, hworkspace⟩ := h
    have hrest := ih (hstate.stepAlike (P.advance w s).2.2)
    rw [seen, seen, after, after, ← hworkspace, hrest.1, hrest.2, hfound,
      (bisimulation_alike P Q).record hstate]
    exact ⟨rfl, rfl⟩

/-! ## Attaching filters to producers that are alike -/

/-- A worker pulls alike at producers whose next steps agree. -/
theorem agree_pull {w w' : Workspace} {s : P.State} {t : Q.State} (h : StepAlike P Q w s w' t)
    (k : Worker) :
    Agree (fun a b => Alike P Q a.1 b.1 ∧ a.2 = b.2) (P.pull w s k) (Q.pull w' t k) := by
  induction hn : P.remaining s using Nat.strongRecOn generalizing w w' s t k with
  | ind n ih =>
    obtain ⟨hfound, hstate, hworkspace⟩ := h
    have hrecord := (bisimulation_alike P Q).record hstate
    cases hP : (P.advance w s).1 with
    | false =>
      rw [P.pull_of_advance_eq_false k hP, Q.pull_of_advance_eq_false k (hfound.symm.trans hP)]
      exact ⟨rfl, ⟨hstate, rfl⟩, hworkspace⟩
    | true =>
      have hlt := P.remaining_advance w s hP
      rw [P.pull_of_advance_eq_true k hP, Q.pull_of_advance_eq_true k (hfound.symm.trans hP),
        ← hworkspace, ← hrecord]
      have hnext := (bisimulation_alike P Q).write hstate
        (k.step (P.advance w s).2.2 (P.record (P.advance w s).2.1)).token
      dsimp only
      split
      · exact ⟨rfl, ⟨hnext, rfl⟩, rfl⟩
      · exact ih _ (by rw [P.remaining_write]; omega) (hnext.stepAlike _) _ rfl

/-- The same worker behind alike states is in alike states. -/
theorem alike_behind {s : P.State} {t : Q.State} (h : Alike P Q s t) (k : Worker) :
    Alike P.behind Q.behind (s, k) (t, k) := by
  refine ⟨fun a b => Alike P Q a.1 b.1 ∧ a.2 = b.2, ⟨?_, ?_, ?_⟩, h, rfl⟩
  · rintro ⟨s, k⟩ ⟨t, l⟩ ⟨hst, rfl⟩
    exact (bisimulation_alike P Q).record hst
  · rintro ⟨s, k⟩ ⟨t, l⟩ ⟨hst, rfl⟩ x
    exact ⟨(bisimulation_alike P Q).write hst x, rfl⟩
  · rintro ⟨s, k⟩ ⟨t, l⟩ ⟨hst, rfl⟩ w
    exact agree_pull (hst.stepAlike w) k

/-- A producer that gives back no token is like the producer itself. -/
theorem alike_replay (s : P.State) : Alike P.replay P (false, s) s := by
  refine ⟨fun a b => a = (false, b), ⟨?_, ?_, ?_⟩, rfl⟩
  · rintro a b rfl
    rfl
  · rintro a b rfl x
    rfl
  · rintro a b rfl w
    exact ⟨rfl, rfl, rfl⟩

/-- Giving back the token that a step has found undoes the step. -/
theorem stepAlike_again {w : Workspace} {s : P.State} (h : (P.advance w s).1 = true) :
    StepAlike P.replay P (P.advance w s).2.2 (P.again (P.advance w s).2.1) w s :=
  ⟨h.symm, alike_replay _, rfl⟩

end Producer

namespace Attached

open Producer

variable {P Q : Producer} {subP : String → Attached P.replay} {subQ : String → Attached Q.replay}

/-- States of two dispatching filters that have come to the same choice. -/
inductive Choice.Alike : Choice P subP → Choice Q subQ → Prop where
  | ended {s : P.State} {t : Q.State} (h : Producer.Alike P Q s t) : Alike (.ended s) (.ended t)
  | active {mode : String} {s : (subP mode).producer.State} {t : (subQ mode).producer.State}
      (h : Producer.Alike _ _ s t) : Alike (.active mode s) (.active mode t)

/-- Dispatching filters that have come to the same choice are alike. -/
theorem Choice.Alike.alike {s : Choice P subP} {t : Choice Q subQ} (h : Choice.Alike s t) :
    Producer.Alike (choosing P subP).producer (choosing Q subQ).producer s t := by
  refine ⟨Choice.Alike, ⟨?_, ?_, ?_⟩, h⟩
  · rintro s t (hst | hst)
    · exact (bisimulation_alike P Q).record hst
    · exact (bisimulation_alike (subP _).producer (subQ _).producer).record hst
  · rintro s t (hst | hst) x
    · exact .ended ((bisimulation_alike _ _).write hst x)
    · exact .active ((bisimulation_alike _ _).write hst x)
  · rintro s t (hst | hst) w
    · obtain ⟨hfound, hstate, hworkspace⟩ := hst.stepAlike w
      exact ⟨hfound, .ended hstate, hworkspace⟩
    · obtain ⟨hfound, hstate, hworkspace⟩ := hst.stepAlike w
      exact ⟨hfound, .active hstate, hworkspace⟩

/-- What is attached to two producers takes first steps that agree, whenever the next steps of the
producers do. -/
def Congruent (A : Attached P) (B : Attached Q) : Prop :=
  ∀ (w w' : Workspace) (s : P.State) (t : Q.State), StepAlike P Q w s w' t →
    StepAlike A.producer B.producer w (A.start s) w' (B.start t)

/-- Nothing attached to both sides is congruent, -/
theorem congruent_bare (P Q : Producer) : Congruent (bare P) (bare Q) :=
  fun _ _ _ _ h => h

/-- so is the same worker attached to both, -/
theorem congruent_working (P Q : Producer) (k : Worker) :
    Congruent (working P k) (working Q k) := by
  intro w w' s t h
  refine (agree_pull h k).mono ?_
  rintro ⟨s, k⟩ ⟨t, l⟩ ⟨hst, rfl⟩
  exact alike_behind hst k

/-- and so is what is chosen on both sides by the same condition. -/
theorem congruent_ite {c : Prop} [Decidable c] {A A' : Attached P} {B B' : Attached Q}
    (h : Congruent A B) (h' : Congruent A' B') :
    Congruent (if c then A else A') (if c then B else B') := by
  split
  · exact h
  · exact h'

/-- A dispatching filter makes no difference where none of the filters that it may attach does. -/
theorem congruent_choosing (h : ∀ mode, Congruent (subP mode) (subQ mode)) :
    Congruent (choosing P subP) (choosing Q subQ) := by
  intro w w' s t hst
  obtain ⟨hfound, hstate, hworkspace⟩ := hst
  have hrecord := (bisimulation_alike P Q).record hstate
  change Agree _ ((Choice.pending s : Choice P subP).advance w)
    ((Choice.pending t : Choice Q subQ).advance w')
  cases hP : (P.advance w s).1 with
  | false =>
    rw [Choice.advance_pending_of_eq_false hP,
      Choice.advance_pending_of_eq_false (hfound.symm.trans hP)]
    exact ⟨rfl, (Choice.Alike.ended hstate).alike, hworkspace⟩
  | true =>
    rw [Choice.advance_pending_of_eq_true hP,
      Choice.advance_pending_of_eq_true (hfound.symm.trans hP), ← hworkspace, ← hrecord]
    -- Both give back the token that they have pulled, and go on from there.
    have hagain : StepAlike P.replay Q.replay (P.advance w s).2.2 (P.again (P.advance w s).2.1)
        (P.advance w s).2.2 (Q.again (Q.advance w' t).2.1) :=
      ⟨rfl, (alike_replay _).trans (hstate.trans (alike_replay _).symm), rfl⟩
    obtain ⟨hfound', hstate', hworkspace'⟩ :=
      h (P.record (P.advance w s).2.1).mode _ _ _ _ hagain
    exact ⟨hfound', (Choice.Alike.active hstate').alike, hworkspace'⟩

end Attached

mutual

/-- A filter does not tell producers apart whose next steps agree. -/
theorem Filter.congruent_attach (keepForms : Bool) (P Q : Producer) :
    ∀ f : Filter, Attached.Congruent (f.attach keepForms P) (f.attach keepForms Q)
  | .dispatch d =>
    Attached.congruent_choosing fun mode => d.congruent_attach keepForms mode P.replay Q.replay
  | .pass | .lowercase | .strip => Attached.congruent_working P Q _
  | .charset _ | .stop _ | .stem _ | .report _ => Attached.congruent_working P Q _

/-- The filter for a mode does not tell producers apart whose next steps agree. -/
theorem Dispatch.congruent_attach (keepForms : Bool) (mode : String) (P Q : Producer) :
    ∀ d : Dispatch, Attached.Congruent (d.attach keepForms mode P) (d.attach keepForms mode Q)
  | .otherwise f =>
    Attached.congruent_ite (Attached.congruent_bare P Q) (f.congruent_attach keepForms P Q)
  | .mode _ f rest =>
    Attached.congruent_ite
      (Attached.congruent_ite (Attached.congruent_bare P Q) (f.congruent_attach keepForms P Q))
      (rest.congruent_attach keepForms mode P Q)

end

end TextAnalysis
