import TextAnalysis.Proofs.Agreeing
import TextAnalysis.Proofs.Presets

/-!
# Marking stopped tokens and dropping them

Where at most one stop filter is at work, it does not matter whether it drops the tokens that it
stops or marks them and a consumer skips the marked ones.

Two runs are followed side by side: one in which stopped tokens are marked, with a worker at the end
that drops the marked ones, and one in which they are dropped. The records of the runs differ while
a marked token goes on through the filters behind the stop filter; what these do to it is lost when
the next piece is loaded (`Token.SameLoad`). Stem filters leave marked tokens alone, so the
workspaces keep giving the same stems. One token keeps the runs together (`passThrough_marking`),
hence so do all (`tokensFrom_marking`). Main statement: `skipping_marked_is_dropping`.
-/

set_option autoImplicit false

namespace TextAnalysis

/-! ## Tokens and records of the two runs -/

/-- The token as it is where stopped tokens are marked. -/
def Token.marking (t : Token) : Token := { t with removeStopped := false }

/-- The record `m` of the run that marks and the record `r` of the run that drops agree in all that
a piece may leave as it is. -/
structure Token.SameLoad (m r : Token) : Prop where
  position : m.position = r.position
  startOffset : m.startOffset = r.startOffset
  endOffset : m.endOffset = r.endOffset
  attributes : m.attributes = r.attributes
  mode : m.mode = r.mode
  marks : m.removeStopped = false
  drops : r.removeStopped = true

namespace Token.SameLoad

/-- A token to be dropped and the one to be marked in its place take the same updates. -/
theorem marking {t : Token} (h : t.removeStopped = true) : t.marking.SameLoad t :=
  ⟨rfl, rfl, rfl, rfl, rfl, rfl, h⟩

/-- So do the records with which marking and dropping start. -/
theorem start (o : Options) :
    (Token.ofOptions { o with removeStopped := false }).SameLoad
      (.ofOptions { o with removeStopped := true }) :=
  ⟨rfl, rfl, rfl, rfl, rfl, rfl, rfl⟩

/-- A piece makes the same token in both runs, which no filter has stopped yet. -/
theorem apply {m r : Token} (h : m.SameLoad r) (o : Options) (index : Nat) (p : Piece) :
    (p.update o index).apply m = ((p.update o index).apply r).marking ∧
      ((p.update o index).apply r).stopped = false ∧
      ((p.update o index).apply r).removeStopped = true := by
  obtain ⟨hposition, hstart, hend, hattributes, hmode, hmarks, hdrops⟩ := h
  rw [Piece.apply_update, Piece.apply_update]
  refine ⟨?_, rfl, hdrops⟩
  simp only [Token.marking, hposition, hstart, hend, hattributes, hmode, hmarks]

end Token.SameLoad

/-! ## One token -/

section Steps

variable {owned : List StemFilter} {v w : Workspace}

open Workspace

/-- A worker that is no stop filter does the same in both runs. -/
theorem Worker.step_marking {k : Worker} (hstop : k.stopFilters = []) (hfilter : k ≠ .unstopped)
    (hstem : k.stemFilters ⊆ owned) (h : StemsAlike owned v w) (t : Token) :
    ∃ v' w' text, k.step v t.marking = ⟨v', k, { t with text := text }.marking, true⟩ ∧
      k.step w t = ⟨w', k, { t with text := text }, true⟩ ∧ StemsAlike owned v' w' := by
  have htext : t.marking.text = t.text := rfl
  obtain ⟨v', w', text, kept, hv, hw, h'⟩ :=
    k.step_congr (StemsAlike.bisimulation owned) h hstop hstem htext rfl
  obtain ⟨w₁, text₁, hkept⟩ := k.step_of_stopFilters_eq_nil hstop hfilter w t
  obtain rfl : kept = true := congrArg Passed.kept (hw.symm.trans hkept)
  exact ⟨v', w', text, hv, hw, h'⟩

/-- A worker that is no stop filter looks up no stem for a token that is marked. -/
theorem Worker.step_stopped {k : Worker} (hstop : k.stopFilters = []) (hfilter : k ≠ .unstopped)
    (h : StemsAlike owned v w) {t : Token} (ht : t.stopped = true) :
    ∃ v' text, k.step v t = ⟨v', k, { t with text := text }, true⟩ ∧ StemsAlike owned v' w := by
  have hbisim := StemsAlike.bisimulation owned
  cases k with
  | stop f last => cases hstop
  | unstopped => exact absurd rfl hfilter
  | stem f =>
    have hignored : (t.stopped || f.ignored.contains t.text) = true := by rw [ht, Bool.true_or]
    exact ⟨v, t.text, step_stem_of_ignored hignored v, h⟩
  | report r => exact ⟨_, t.text, step_report r v t, hbisim.report_left h (r.event t)⟩
  | pass => exact ⟨v, t.text, rfl, h⟩
  | lowercase | strip | charset => exact ⟨v, _, rfl, h⟩

/-- A marked token goes on to the end and is dropped there. -/
theorem passThrough_stopped {ks : List Worker} (hstops : ks.flatMap Worker.stopFilters = [])
    (hfilters : ∀ k ∈ ks, k ≠ .unstopped) (h : StemsAlike owned v w) {t : Token}
    (ht : t.stopped = true) :
    ∃ v' text, passThrough v t (ks.map .working ++ [.working .unstopped]) =
        ⟨v', ks.map .working ++ [.working .unstopped], { t with text := text }, false⟩ ∧
      StemsAlike owned v' w := by
  induction ks generalizing v t with
  | nil =>
    refine ⟨v, t.text, ?_, h⟩
    have hstep : Worker.unstopped.step v t = ⟨v, .unstopped, t, false⟩ := by
      simp only [Worker.step, ht, Bool.not_true]
    exact passThrough_cons_of_dropped hstep []
  | cons k rest ih =>
    rw [List.flatMap_cons, List.append_eq_nil_iff] at hstops
    obtain ⟨v₁, text, hstep, h₁⟩ :=
      Worker.step_stopped hstops.1 (hfilters k List.mem_cons_self) h ht
    obtain ⟨v₂, text', hrest, h₂⟩ := ih hstops.2
      (fun q hq => hfilters q (List.mem_cons_of_mem _ hq)) h₁ (t := { t with text := text }) ht
    refine ⟨v₂, text', ?_, h₂⟩
    rw [List.map_cons, List.cons_append, passThrough_cons_of_kept hstep, hrest]

/-- At most one of the workers is a stop filter, and the stem filters among them are given. -/
structure Worker.OneStop (owned : List StemFilter) (ks : List Worker) : Prop where
  stops : (ks.flatMap Worker.stopFilters).length ≤ 1
  stems : ks.flatMap Worker.stemFilters ⊆ owned
  filters : ∀ k ∈ ks, k ≠ .unstopped

namespace Worker.OneStop

/-- Behind one of the workers, there is at most one stop filter as well. -/
theorem tail {k : Worker} {ks : List Worker} (h : OneStop owned (k :: ks)) : OneStop owned ks where
  stops := by
    have hstops := h.stops
    rw [List.flatMap_cons, List.length_append] at hstops
    omega
  stems := (List.append_subset.mp (List.flatMap_cons ▸ h.stems)).2
  filters q hq := h.filters q (List.mem_cons_of_mem _ hq)

/-- Behind a stop filter there is no other. -/
theorem no_other {f : StopFilter} {last : Option Nat} {ks : List Worker}
    (h : OneStop owned (.stop f last :: ks)) : ks.flatMap Worker.stopFilters = [] := by
  have hstops := h.stops
  rw [List.flatMap_cons, List.length_append] at hstops
  have hone : (Worker.stop f last).stopFilters.length = 1 := rfl
  exact List.eq_nil_of_length_eq_zero (by omega)

/-- What the workers remember does not change how many stop filters there are. -/
theorem congr {ks ks' : List Worker} (h : OneStop owned ks)
    (hfresh : ks'.map Worker.fresh = ks.map Worker.fresh) : OneStop owned ks' where
  stops := by
    rw [flatMap_congr_of_fresh Worker.stopFilters_fresh hfresh]
    exact h.stops
  stems := by
    rw [flatMap_congr_of_fresh Worker.stemFilters_fresh hfresh]
    exact h.stems
  filters := ne_unstopped_congr hfresh h.filters

end Worker.OneStop

/-- **One token in both runs.** It is kept in both or in none. The filters are the same, and the
records agree in what the next piece may leave as it is. -/
theorem passThrough_marking {ks : List Worker} (hks : Worker.OneStop owned ks)
    (h : StemsAlike owned v w) {t : Token} (hstopped : t.stopped = false)
    (hdrops : t.removeStopped = true) :
    let p := passThrough v t.marking (ks.map .working ++ [.working .unstopped])
    let q := passThrough w t (ks.map .working)
    p.kept = q.kept ∧ (q.kept = true → p.token = q.token.marking) ∧ p.token.SameLoad q.token ∧
      p.filter = q.filter ++ [.working .unstopped] ∧ StemsAlike owned p.workspace q.workspace := by
  induction ks generalizing v w t with
  | nil =>
    have hstep : Worker.unstopped.step v t.marking = ⟨v, .unstopped, t.marking, true⟩ := by
      rw [Worker.step, show t.marking.stopped = t.stopped from rfl, hstopped, Bool.not_false]
    rw [List.map_nil, List.nil_append, passThrough_cons_of_kept hstep]
    exact ⟨rfl, fun _ => rfl, .marking hdrops, rfl, h⟩
  | cons k rest ih =>
    rw [List.map_cons, List.cons_append]
    by_cases hstop : k.stopFilters = []
    · have hstem : k.stemFilters ⊆ owned :=
        (List.append_subset.mp (List.flatMap_cons ▸ hks.stems)).1
      obtain ⟨v', w', text, hv, hw, h'⟩ :=
        k.step_marking hstop (hks.filters k List.mem_cons_self) hstem h t
      obtain ⟨hkept, htoken, hload, hfilter, hworkspace⟩ :=
        ih hks.tail h' (t := { t with text := text }) hstopped hdrops
      rw [passThrough_cons_of_kept hv, passThrough_cons_of_kept hw]
      exact ⟨hkept, htoken, hload, congrArg (List.cons _) hfilter, hworkspace⟩
    · obtain ⟨f, last, rfl⟩ := k.eq_stop_of_stopFilters_ne_nil hstop
      cases hstops : f.stops t.text with
      | true =>
        -- One run drops the token here, the other marks it and drops it at the end.
        have hv := Worker.step_stop_of_marks (t := t.marking) hstops rfl last v
        have hw := Worker.step_stop_of_drops hstops hdrops last w
        obtain ⟨v', text, hrest, h'⟩ := passThrough_stopped hks.no_other
          (fun q hq => hks.filters q (List.mem_cons_of_mem _ hq)) h
          (t := { t.marking with stopped := true }) rfl
        rw [passThrough_cons_of_kept hv, hrest, passThrough_cons_of_dropped hw]
        exact ⟨rfl, fun hkept => absurd hkept Bool.false_ne_true,
          ⟨rfl, rfl, rfl, rfl, rfl, rfl, hdrops⟩, rfl, h'⟩
      | false =>
        have hv := Worker.step_stop_of_not_stops (t := t.marking) hstops last v
        have hw := Worker.step_stop_of_not_stops hstops last w
        obtain ⟨hkept, htoken, hload, hfilter, hworkspace⟩ := ih hks.tail h
          (t := { t with stopped := false, position := (f.renumbered last t.position).1 })
          rfl hdrops
        rw [passThrough_cons_of_kept hv, passThrough_cons_of_kept hw]
        exact ⟨hkept, htoken, hload, congrArg (List.cons _) hfilter, hworkspace⟩

/-! ## All tokens -/

/-- The run that marks stopped tokens and skips them at the end leaves the tokens of the run that
drops them. -/
theorem tokensFrom_marking {ks : List Worker} (hks : Worker.OneStop owned ks)
    (h : StemsAlike owned v w) {m r : Token} (hload : m.SameLoad r) (o : Options) (index : Nat)
    (pieces : List Piece) :
    tokensFrom v m (ks.map .working ++ [.working .unstopped]) (Piece.updatesFrom o index pieces) =
      (tokensFrom w r (ks.map .working) (Piece.updatesFrom o index pieces)).map Token.marking := by
  induction pieces generalizing ks v w m r index with
  | nil => rfl
  | cons p rest ih =>
    obtain ⟨htoken, hstopped, hdrops⟩ := hload.apply o index p
    obtain ⟨hkept, hpassed, hload', hfilter, hworkspace⟩ :=
      passThrough_marking hks h hstopped hdrops
    obtain ⟨ks', hworkers, hfresh⟩ :=
      exists_workers_passThrough w ((p.update o index).apply r) ks
    rw [Piece.updatesFrom, tokensFrom, tokensFrom, htoken, hfilter, hkept, hworkers,
      ih (hks.congr hfresh) hworkspace hload']
    split
    · next hk => rw [hpassed hk, List.map_cons]
    · rfl

end Steps

namespace Pipeline

/-- The workers of a pipeline in which at most one stop filter is at work. -/
theorem oneStop_workers {p : Pipeline} {o : Options} (h : (p.stopFilters o.mode).length ≤ 1) :
    Worker.OneStop p.stemFilters (p.workers o) where
  stops := by
    rw [p.stopFilters_workers]
    exact h
  stems := p.stemFilters_workers o
  filters _ := ne_unstopped_of_mem_workers

/-- Skipping the marked tokens of a text leaves what is left where stopped tokens are dropped. -/
theorem drain_unstopped {p : Pipeline} {o : Options} (hstops : (p.stopFilters o.mode).length ≤ 1)
    {v w : Workspace} (hstems : Workspace.StemsAlike p.stemFilters v w) (text : String) :
    ((p.streamOfText { o with removeStopped := false } text).unstopped.drain v).1 =
      ((p.streamOfText { o with removeStopped := true } text).drain w).1.map Token.marking := by
  have hmarks := p.drain_behind { o with removeStopped := false } text [.working .unstopped] v
  have hdrops := p.drain_streamOfText { o with removeStopped := true } text w
  have hupdates : Piece.updatesFrom { o with removeStopped := false } 0
      (p.tokenizer.cut o.tokenize text) =
        Piece.updatesFrom { o with removeStopped := true } 0 (p.tokenizer.cut o.tokenize text) := by
    apply Piece.updatesFrom_congr
    rfl
  calc ((p.streamOfText { o with removeStopped := false } text).unstopped.drain v).1
      = tokensFrom v (.ofOptions { o with removeStopped := false })
          ((p.workers o).map Running.working ++ [Running.working .unstopped])
          (Piece.updatesFrom { o with removeStopped := false } 0
            (p.tokenizer.cut o.tokenize text)) := hmarks
    _ = (tokensFrom w (.ofOptions { o with removeStopped := true })
          ((p.workers o).map Running.working)
          (Piece.updatesFrom { o with removeStopped := true } 0
            (p.tokenizer.cut o.tokenize text))).map Token.marking := by
      rw [hupdates]
      exact tokensFrom_marking (oneStop_workers hstops) hstems (.start o) _ 0 _
    _ = ((p.streamOfText { o with removeStopped := true } text).drain w).1.map Token.marking :=
      congrArg (List.map Token.marking) hdrops.symm

end Pipeline

/-- **Marking stopped tokens and skipping the marked ones is dropping them.** Where the tokens of
the analysis pass at most one stop filter, as they do in every preset, skipping the marked tokens of
an analysis that marks gives the tokens of the analysis that drops, but for the field that says so.
The two may be made one after the other in either order: it is enough that the workspaces in which
they are made give the same stems. Where the input is no text both fail in the same way. -/
theorem skipping_marked_is_dropping :
    (∀ (p : Pipeline) (o : Options) (input : Input) (v w : Workspace),
      (p.stopFilters o.mode).length ≤ 1 → Workspace.StemsAlike p.stemFilters v w →
      match p.analyze { o with removeStopped := false } input,
        p.analyze { o with removeStopped := true } input with
      | .ok s, .ok t =>
        (s.unstopped.drain v).1 = (t.drain w).1.map fun t => { t with removeStopped := false }
      | .error e, .error e' => e = e'
      | _, _ => False) ∧
    ∀ preset : Preset, preset.build.Yields fun p => ∀ mode, (p.stopFilters mode).length ≤ 1 := by
  refine ⟨?_, Preset.build_yields⟩
  intro p o input v w hstops hstems
  unfold Pipeline.analyze
  cases input.decode with
  | error e => rfl
  | ok text => exact Pipeline.drain_unstopped hstops hstems text

/-- A stop filter that renumbers, on three words of which it stops one. -/
theorem skipping_marked_fox_the_dog :
    let stop : StopFilter := { words := WordSet.ofWords ["the"], renumber := true }
    let p : Pipeline := ⟨"words", .charset (({} : CharMap).breakOn ' '),
      [.dispatch (.mode "index" .pass (.otherwise (.stop stop))),
        .stem { stemmer := .custom "hyphen" 0, cache := 0 }]⟩
    let w : Workspace := { stemmers := [fun word => word ++ "-"] }
    let marked := p.streamOfText { positions := true, removeStopped := false } "fox the dog"
    let dropped := p.streamOfText { positions := true } "fox the dog"
    (p.stopFilters "").length ≤ 1 ∧ Workspace.StemsAlike p.stemFilters w w ∧
      (marked.unstopped.drain w).1 =
        (dropped.drain w).1.map (fun t => { t with removeStopped := false }) ∧
      (dropped.drain w).1.map (fun t => (t.text, t.position)) =
        [("fox-", some 0), ("dog-", some 1)] := by
  intro stop p w marked dropped
  have hstops : (p.stopFilters "").length ≤ 1 := by decide
  have hstems := Workspace.StemsAlike.refl p.stemFilters w
  refine ⟨hstops, hstems, ?_, by decide⟩
  exact skipping_marked_is_dropping.1 p { positions := true } (.text "fox the dog") w w
    hstops hstems

end TextAnalysis
