import Mathlib.Data.List.Flatten
import Mathlib.Data.List.ReduceOption
import TextAnalysis.Proofs.Agreeing
import TextAnalysis.Proofs.Producer

/-!
# What comes to a stage

Every token that the tokenizer cuts arrives at the filters and is kept or dropped by them: that is its
fate. The fates say how far a stream has come after some steps, since a step takes no more than it
needs (`Stream.after_eq_fed`).

What comes to a stage is what the pipeline makes of the token that is cut before this stage. Such a
pipeline makes a run of its own, with a record, a workspace and filters of its own. It takes the same
pieces as the whole pipeline, so the two runs are compared piece by piece (`fatesFrom_take`): the
filters in front of the stage come to the same work in both, and of the records the next piece makes
the same token (`Token.SameNext`).
-/

set_option autoImplicit false

namespace TextAnalysis

/-! ## Arrivals and fates -/

/-- The token behind the filters, if they have kept it. -/
def Passed.fate {α : Type} (p : Passed α) : Option Token := if p.kept then some p.token else none

/-- A token has no fate behind a filter that drops it. -/
theorem Passed.fate_eq_none_iff {α : Type} (p : Passed α) : p.fate = none ↔ p.kept = false := by
  rw [fate]
  cases p.kept <;> simp

/-- The fate of a token behind several filters is its fate behind the others, unless the first drops
it. -/
theorem fate_passThrough_cons (w : Workspace) (t : Token) (r : Running) (rest : List Running) :
    (passThrough w t (r :: rest)).fate =
      if (r.step w t).kept then
        (passThrough (r.step w t).workspace (r.step w t).token rest).fate
      else none := by
  rw [passThrough]
  dsimp only
  split
  · rfl
  · rfl

/-- A token in front of filters. -/
structure Arrival where
  workspace : Workspace
  token : Token
  filters : List Running

/-- What becomes of the token behind the first filters. -/
def Arrival.fate (a : Arrival) (count : Nat) : Option Token :=
  (passThrough a.workspace a.token (a.filters.take count)).fate

/-- The tokens that the updates make, one after the other in front of the filters. -/
def arrivalsFrom (w : Workspace) (record : Token) (filters : List Running) :
    List Update → List Arrival
  | [] => []
  | u :: rest =>
    let p := passThrough w (u.apply record) filters
    ⟨w, u.apply record, filters⟩ :: arrivalsFrom p.workspace p.token p.filter rest

/-- What becomes of these tokens: each is kept or dropped by the filters. -/
def fatesFrom (w : Workspace) (record : Token) (filters : List Running) :
    List Update → List (Option Token)
  | [] => []
  | u :: rest =>
    let p := passThrough w (u.apply record) filters
    p.fate :: fatesFrom p.workspace p.token p.filter rest

/-- Every update arrives, -/
theorem length_arrivalsFrom (w : Workspace) (record : Token) (filters : List Running)
    (updates : List Update) : (arrivalsFrom w record filters updates).length = updates.length := by
  induction updates generalizing w record filters with
  | nil => rfl
  | cons u rest ih => rw [arrivalsFrom, List.length_cons, List.length_cons, ih]

/-- and every update has a fate. -/
theorem length_fatesFrom (w : Workspace) (record : Token) (filters : List Running)
    (updates : List Update) : (fatesFrom w record filters updates).length = updates.length := by
  induction updates generalizing w record filters with
  | nil => rfl
  | cons u rest ih => rw [fatesFrom, List.length_cons, List.length_cons, ih]

/-- The fates of the tokens that come out are these tokens. -/
theorem reduceOption_fatesFrom (w : Workspace) (record : Token) (filters : List Running)
    (updates : List Update) :
    (fatesFrom w record filters updates).reduceOption = tokensFrom w record filters updates := by
  induction updates generalizing w record filters with
  | nil => rfl
  | cons u rest ih =>
    rw [fatesFrom, tokensFrom, Passed.fate]
    split
    · rw [List.reduceOption_cons_of_some, ih]
    · rw [List.reduceOption_cons_of_none, ih]

/-- Without filters, every token comes out. -/
theorem fatesFrom_nil (w : Workspace) (record : Token) (updates : List Update) :
    fatesFrom w record [] updates = (tokensFrom w record [] updates).map some := by
  induction updates generalizing w record with
  | nil => rfl
  | cons u rest ih => exact congrArg (List.cons (some (u.apply record))) (ih w (u.apply record))

/-- What has been dropped does not come to a later place. -/
theorem Arrival.fate_eq_none_of_le {a : Arrival} {count count' : Nat} (hle : count ≤ count')
    (h : a.fate count = none) : a.fate count' = none := by
  have hsplit := List.take_append_drop count (a.filters.take count')
  rw [List.take_take, Nat.min_eq_left hle] at hsplit
  have hdropped := (Passed.fate_eq_none_iff _).mp h
  rw [Arrival.fate, Passed.fate_eq_none_iff, ← hsplit, passThrough_append]
  dsimp only
  rw [hdropped]
  rfl

namespace Stream

/-- The tokens that the source will make, in front of the filters. -/
def arrivals (w : Workspace) (s : Stream) : List Arrival :=
  arrivalsFrom w s.record s.filters s.pending

/-- What becomes of these tokens. -/
def fates (w : Workspace) (s : Stream) : List (Option Token) :=
  fatesFrom w s.record s.filters s.pending

/-- Every pending update arrives at the end of the filters or before, -/
theorem length_arrivals (w : Workspace) (s : Stream) : (s.arrivals w).length = s.pending.length :=
  length_arrivalsFrom w s.record s.filters s.pending

/-- every pending update has a fate, -/
theorem length_fates (w : Workspace) (s : Stream) : (s.fates w).length = s.pending.length :=
  length_fatesFrom w s.record s.filters s.pending

/-- and those that come out are what draining the stream gives. -/
theorem reduceOption_fates (w : Workspace) (s : Stream) :
    (s.fates w).reduceOption = (s.drain w).1 := by
  rw [drain_fst]
  exact reduceOption_fatesFrom w s.record s.filters s.pending

end Stream

/-! ## How far a stream has come -/

/-- The number of tokens of the tokenizer, by their fates, that it takes to get `count` tokens. -/
def consumed {α : Type} : Nat → List (Option α) → Nat
  | 0, _ => 0
  | _ + 1, [] => 0
  | count + 1, none :: rest => consumed (count + 1) rest + 1
  | count + 1, some _ :: rest => consumed count rest + 1

/-- For no token, nothing is consumed. -/
theorem consumed_zero {α : Type} (fates : List (Option α)) : consumed 0 fates = 0 := by
  rw [consumed]

/-- No more is consumed than there is. -/
theorem consumed_le_length {α : Type} (count : Nat) (fates : List (Option α)) :
    consumed count fates ≤ fates.length := by
  fun_induction consumed count fates with
  | case1 => exact Nat.zero_le _
  | case2 => exact Nat.le_refl 0
  | case3 count rest ih => exact Nat.succ_le_succ ih
  | case4 count t rest ih => exact Nat.succ_le_succ ih

/-- As many steps as there are tokens of the tokenizer take them all. -/
theorem consumed_of_length_le {α : Type} {count : Nat} {fates : List (Option α)}
    (h : fates.length ≤ count) : consumed count fates = fates.length := by
  fun_induction consumed count fates with
  | case1 fates => exact (Nat.le_zero.mp h).symm
  | case2 => rfl
  | case3 count rest ih => rw [ih (Nat.le_of_succ_le h), List.length_cons]
  | case4 count t rest ih => rw [ih (Nat.le_of_succ_le_succ h), List.length_cons]

namespace Stream

/-- A stream with nothing pending stays as it is. -/
theorem after_of_pending_eq_nil {s : Stream} (h : s.pending = []) (n : Nat) (w : Workspace) :
    Producer.streams.after n w s = (s, w) := by
  induction n with
  | zero => rfl
  | succ n ih =>
    rw [Producer.after_succ, ih]
    dsimp only
    rw [advance_of_pending_eq_nil h]

/-- Taking tokens leaves the stream and the workspace as that many steps do. -/
theorem take_snd (n : Nat) (w : Workspace) (s : Stream) :
    (s.take n w).2 = Producer.streams.after n w s := by
  induction n generalizing w s with
  | zero => rfl
  | succ n ih =>
    rw [Producer.after]
    cases hs : (s.advance w).1 with
    | false =>
      rw [take_of_advance_eq_false n hs, after_of_pending_eq_nil (pending_of_advance_eq_false hs)]
    | true =>
      rw [take_of_advance_eq_true n hs]
      exact ih _ _

/-- The stream and the workspace after a number of updates, whether their tokens are kept or
dropped. -/
def fed (w : Workspace) (s : Stream) : Nat → Stream × Workspace
  | 0 => (s, w)
  | count + 1 =>
    match s.pending with
    | [] => (s, w)
    | u :: rest =>
      let p := passThrough w (u.apply s.record) s.filters
      fed p.workspace ⟨p.token, rest, p.filter⟩ count

/-- Feeding a stream takes updates off the front of those that are pending. -/
theorem pending_fed (w : Workspace) (s : Stream) (count : Nat) :
    (s.fed w count).1.pending = s.pending.drop count := by
  obtain ⟨record, updates, filters⟩ := s
  induction updates generalizing w record filters count with
  | nil => cases count <;> rfl
  | cons u rest ih =>
    cases count with
    | zero => rfl
    | succ count => exact ih _ _ _ _

section Cons

variable {w : Workspace} {record : Token} {filters : List Running} {u : Update}

/-- A stream whose next token is kept stops at this token. -/
theorem advance_cons_of_kept (h : (passThrough w (u.apply record) filters).kept = true)
    (rest : List Update) :
    (Stream.mk record (u :: rest) filters).advance w =
      let p := passThrough w (u.apply record) filters
      (true, ⟨p.token, rest, p.filter⟩, p.workspace) := by
  rw [advance, advanceFrom, if_pos h]

/-- A stream whose next token is dropped goes on behind it. -/
theorem advance_cons_of_dropped (h : (passThrough w (u.apply record) filters).kept = false)
    (rest : List Update) :
    (Stream.mk record (u :: rest) filters).advance w =
      let p := passThrough w (u.apply record) filters
      (Stream.mk p.token rest p.filter).advance p.workspace := by
  rw [advance, advanceFrom, if_neg (by rw [h]; exact Bool.false_ne_true)]
  rfl

/-- Steps over a token that is kept count this one. -/
theorem after_cons_of_kept (h : (passThrough w (u.apply record) filters).kept = true)
    (rest : List Update) (n : Nat) :
    Producer.streams.after (n + 1) w (Stream.mk record (u :: rest) filters) =
      let p := passThrough w (u.apply record) filters
      Producer.streams.after n p.workspace (Stream.mk p.token rest p.filter) := by
  rw [Producer.after]
  dsimp only
  rw [advance_cons_of_kept h]

/-- Steps over a token that is dropped do not count it. -/
theorem after_cons_of_dropped (h : (passThrough w (u.apply record) filters).kept = false)
    (rest : List Update) (n : Nat) :
    Producer.streams.after (n + 1) w (Stream.mk record (u :: rest) filters) =
      let p := passThrough w (u.apply record) filters
      Producer.streams.after (n + 1) p.workspace (Stream.mk p.token rest p.filter) := by
  rw [Producer.after, Producer.after]
  dsimp only
  rw [advance_cons_of_dropped h]

/-- A token that is dropped makes no difference to what the next step finds. -/
theorem advance_after_cons_of_dropped
    (h : (passThrough w (u.apply record) filters).kept = false) (rest : List Update) (n : Nat) :
    let here := Producer.streams.after n w (Stream.mk record (u :: rest) filters)
    let p := passThrough w (u.apply record) filters
    let there := Producer.streams.after n p.workspace (Stream.mk p.token rest p.filter)
    here.1.advance here.2 = there.1.advance there.2 := by
  cases n with
  | zero => exact advance_cons_of_dropped h rest
  | succ n => rw [after_cons_of_dropped h]

/-- A token that is kept is the first of the fates. -/
theorem fates_cons_of_kept (h : (passThrough w (u.apply record) filters).kept = true)
    (rest : List Update) :
    (Stream.mk record (u :: rest) filters).fates w =
      let p := passThrough w (u.apply record) filters
      some p.token :: (Stream.mk p.token rest p.filter).fates p.workspace := by
  rw [fates, fatesFrom, Passed.fate, if_pos h]
  rfl

/-- A token that is dropped leaves a gap in front of the other fates. -/
theorem fates_cons_of_dropped (h : (passThrough w (u.apply record) filters).kept = false)
    (rest : List Update) :
    (Stream.mk record (u :: rest) filters).fates w =
      let p := passThrough w (u.apply record) filters
      none :: (Stream.mk p.token rest p.filter).fates p.workspace := by
  rw [fates, fatesFrom, Passed.fate, if_neg (by rw [h]; exact Bool.false_ne_true)]
  rfl

end Cons

/-- **A stream takes no more than it needs.** A number of steps takes the updates that it takes to
get as many tokens. -/
theorem after_eq_fed (n : Nat) (w : Workspace) (s : Stream) :
    Producer.streams.after n w s = s.fed w (consumed n (s.fates w)) := by
  obtain ⟨record, updates, filters⟩ := s
  -- A step goes through all updates that are dropped, so the induction is on these.
  induction updates generalizing n w record filters with
  | nil =>
    rw [after_of_pending_eq_nil rfl]
    cases n <;> rfl
  | cons u rest ih =>
    cases n with
    | zero => rw [consumed_zero]; rfl
    | succ n =>
      cases hkept : (passThrough w (u.apply record) filters).kept with
      | true =>
        rw [after_cons_of_kept hkept, fates_cons_of_kept hkept, consumed]
        exact ih n _ _ _
      | false =>
        rw [after_cons_of_dropped hkept, fates_cons_of_dropped hkept, consumed]
        exact ih (n + 1) _ _ _

/-- The token of a step is the one that was taken last. -/
theorem exists_consumed_eq (n : Nat) (w : Workspace) (s : Stream) :
    let here := Producer.streams.after n w s
    (here.1.advance here.2).1 = true →
      ∃ place, consumed (n + 1) (s.fates w) = place + 1 ∧
        (s.fates w)[place]? = some (some (here.1.advance here.2).2.1.record) := by
  obtain ⟨record, updates, filters⟩ := s
  induction updates generalizing n w record filters with
  | nil =>
    rw [after_of_pending_eq_nil rfl]
    dsimp only
    rw [advance_of_pending_eq_nil rfl]
    nofun
  | cons u rest ih =>
    cases hkept : (passThrough w (u.apply record) filters).kept with
    | true =>
      rw [fates_cons_of_kept hkept]
      cases n with
      | zero =>
        rw [Producer.after]
        dsimp only
        rw [advance_cons_of_kept hkept, consumed, consumed_zero]
        exact fun _ => ⟨0, rfl, rfl⟩
      | succ n =>
        rw [after_cons_of_kept hkept]
        intro here hfound
        obtain ⟨place, hplace, hfate⟩ := ih n _ _ _ hfound
        exact ⟨place + 1, by rw [consumed, hplace], hfate⟩
    | false =>
      rw [fates_cons_of_dropped hkept]
      dsimp only
      rw [advance_after_cons_of_dropped hkept]
      intro hfound
      obtain ⟨place, hplace, hfate⟩ := ih n _ _ _ hfound
      exact ⟨place + 1, by rw [consumed, hplace], hfate⟩

end Stream

/-! ## The run of the filters in front -/

namespace Worker

/-- No worker gives a position to a token that has none. -/
theorem position_step_of_eq_none (k : Worker) (w : Workspace) {t : Token} (h : t.position = none) :
    (k.step w t).token.position = none := by
  by_cases hfilter : k = .unstopped
  · subst hfilter
    exact h
  · by_cases hstop : k.stopFilters = []
    · obtain ⟨w', text, hstep⟩ := step_of_stopFilters_eq_nil hstop hfilter w t
      rw [hstep]
      exact h
    · obtain ⟨f, last, rfl⟩ := k.eq_stop_of_stopFilters_ne_nil hstop
      have hnumber : (f.renumbered last none).1 = none := by
        unfold StopFilter.renumbered
        cases f.renumber <;> rfl
      rcases step_stop_cases f last w t with ⟨-, hstep⟩ | ⟨-, -, hstep⟩ | ⟨-, -, hstep⟩
      · rw [hstep, h, hnumber]
      · rw [hstep]
        exact h
      · rw [hstep]
        exact h

end Worker

/-- Filters in front do not depend on those behind them. -/
theorem filter_passThrough_take (w : Workspace) (t : Token) (filters : List Running)
    (count : Nat) :
    (passThrough w t (filters.take count)).filter = (passThrough w t filters).filter.take count := by
  induction filters generalizing w t count with
  | nil => cases count <;> rfl
  | cons r rest ih =>
    cases count with
    | zero => rfl
    | succ count =>
      rw [List.take_succ_cons, passThrough, passThrough]
      dsimp only
      split
      · rw [List.take_succ_cons, ih]
      · rw [List.take_succ_cons]

/-- No filter gives a position to a token without one. -/
theorem position_passThrough_of_eq_none (w : Workspace) {t : Token} (h : t.position = none)
    (filters : List Running) : (passThrough w t filters).token.position = none := by
  induction filters generalizing w t with
  | nil => exact h
  | cons r rest ih =>
    have hstep : (r.step w t).token.position = none := Worker.position_step_of_eq_none _ w h
    rw [passThrough]
    dsimp only
    split
    · exact ih _ hstep
    · exact hstep

/-- Two records of which the next piece makes the same token. -/
structure Token.SameNext (o : Options) (a b : Token) : Prop where
  origin : a.SameOrigin b
  mode : b.mode = o.mode
  position : o.positions = false → a.position = none ∧ b.position = none

namespace Token.SameNext

variable {o : Options} {a b : Token}

/-- Records alike in what the next piece leaves alone are the same behind it. -/
theorem apply (h : a.SameNext o b) (index : Nat) (p : Piece) :
    (p.update o index).apply a = (p.update o index).apply b := by
  obtain ⟨⟨-, -, hstart, hend, hattributes, hmode, hremove⟩, -, hposition⟩ := h
  rw [Piece.apply_update, Piece.apply_update, hstart, hend]
  cases hpositions : o.positions with
  | true => simp only [↓reduceIte, hattributes, hmode, hremove]
  | false =>
    obtain ⟨ha, hb⟩ := hposition hpositions
    simp only [ha, hb, hattributes, hmode, hremove]

/-- Records stay alike in this way behind any filters. -/
theorem of_passThrough {t : Token} (hmode : t.mode = o.mode)
    (hposition : o.positions = false → t.position = none) (v w : Workspace)
    (qs rs : List Running) :
    (passThrough v t qs).token.SameNext o (passThrough w t rs).token where
  origin := (sameOrigin_passThrough v t qs).trans (sameOrigin_passThrough w t rs).symm
  mode := (sameOrigin_passThrough w t rs).mode.trans hmode
  position hpositions :=
    ⟨position_passThrough_of_eq_none v (hposition hpositions) qs,
      position_passThrough_of_eq_none w (hposition hpositions) rs⟩

end Token.SameNext

section Cut

open Workspace

variable {stemmers : List (String → String)} {owned : List StemFilter} {v w : Workspace}
  {o : Options}

/-- **What comes to a place is what the filters in front of it leave in a run of their own.** -/
theorem fatesFrom_take (hv : v.Sound stemmers owned) (hw : w.Sound stemmers owned) {count : Nat}
    {qs rs : List Running} (hfilters : List.Forall₂ (Running.Agree .all o.mode o.mode) qs
      (rs.take count))
    (hqs : qs.flatMap Running.stemFilters ⊆ owned) (hrs : rs.flatMap Running.stemFilters ⊆ owned)
    {a b : Token} (index : Nat) (pieces : List Piece)
    (hrecord : pieces ≠ [] → a.SameNext o b) :
    fatesFrom v a qs (Piece.updatesFrom o index pieces) =
      (arrivalsFrom w b rs (Piece.updatesFrom o index pieces)).map (·.fate count) := by
  induction pieces generalizing v w qs rs a b index with
  | nil => rfl
  | cons p rest ih =>
    have hnext := hrecord (List.cons_ne_nil p rest)
    have htoken := hnext.apply index p
    have hmode : ((p.update o index).apply b).mode = o.mode := by
      rw [Piece.apply_update]
      exact hnext.mode
    have hposition : o.positions = false → ((p.update o index).apply b).position = none := by
      intro hoff
      rw [Piece.apply_update]
      dsimp only
      rw [hoff]
      exact (hnext.position hoff).2
    rw [Piece.updatesFrom, fatesFrom, arrivalsFrom, List.map_cons, htoken]
    generalize (p.update o index).apply b = t at hmode hposition ⊢
    -- Filters behind the place fill caches that those in front of it may share. This shows in the
    -- workspaces but not in the stems.
    have hstems := StemsAlike.of_sound hv hw (List.Subset.refl owned) (List.Subset.refl owned)
    obtain ⟨hkept, hagree, hafter, -⟩ := agree_passThrough (StemsAlike.bisimulation owned) hstems
      hfilters hqs (.refl .all t) hmode hmode
    have hsame := hagree.eq ((sameOrigin_passThrough v t qs).trans
      (sameOrigin_passThrough w t (rs.take count)).symm)
    rw [filter_passThrough_take] at hafter
    have hrest := ih (sound_passThrough hv t hqs) (sound_passThrough hw t hrs) hafter
      (List.Subset.trans (stemFilters_passThrough v t qs) hqs)
      (List.Subset.trans (stemFilters_passThrough w t rs) hrs) (index + 1)
      fun _ => Token.SameNext.of_passThrough hmode hposition v w qs rs
    rw [hrest, Arrival.fate, Passed.fate, Passed.fate, hkept, hsame]

end Cut

/-! ## Pipelines -/

namespace Pipeline

variable {stemmers : List (String → String)} {owned : List StemFilter} {w : Workspace}

/-- The pipeline cut before a stage behind its tokenizer. -/
def cutAt (p : Pipeline) (stage : Nat) : Pipeline := { p with filters := p.filters.take stage }

/-- What becomes of the tokens of the tokenizer, one by one: what the pipeline makes of them, or that
it drops them. -/
def fates (p : Pipeline) (o : Options) (text : String) (w : Workspace) : List (Option Token) :=
  (p.streamOfText o text).fates w

/-- The stream of the tokenizer with filters behind it. -/
def feeding (p : Pipeline) (o : Options) (text : String) (filters : List Filter) : Stream :=
  { p.tokenizer.tokenize o text with filters := filters.map (Running.ofFilter o.keepForms) }

/-- The stream of a text is that of its tokenizer, fed to the active filters. -/
theorem streamOfText_eq_feeding (p : Pipeline) (o : Options) (text : String) :
    p.streamOfText o text = p.feeding o text (p.activeFilters o) := by
  rw [streamOfText_eq, (p.tokenizer.start_tokenize o text).1]
  rfl

/-- What comes to a place behind the tokenizer, in terms of a stream with more filters. -/
theorem fates_feeding_take (p : Pipeline) (o : Options) (text : String)
    (hw : w.Sound stemmers owned) {filters : List Filter}
    (hfilters : filters.flatMap Filter.stemFilters ⊆ owned) (count : Nat) :
    (p.feeding o text (filters.take count)).fates w =
      ((p.feeding o text filters).arrivals w).map (·.fate count) := by
  have hstems : (filters.map (Running.ofFilter o.keepForms)).flatMap Running.stemFilters ⊆
      owned := by
    rw [List.flatMap_map]
    simp only [Running.stemFilters_ofFilter]
    exact hfilters
  have hpending : (p.tokenizer.tokenize o text).pending =
      Piece.updatesFrom o 0 (p.tokenizer.cut o.tokenize text) :=
    p.tokenizer.pending_tokenize o text
  rw [Stream.fates, Stream.arrivals, feeding, feeding]
  dsimp only
  rw [hpending, List.map_take]
  have hfront := List.take_sublist count (filters.map (Running.ofFilter o.keepForms))
  refine fatesFrom_take hw hw (List.forall₂_same.mpr fun r _ => .refl .all _)
    (List.Subset.trans (hfront.flatMap _).subset hstems) hstems 0 _ ?_
  intro hne
  rw [(p.tokenizer.record_tokenize o text).resolve_left hne]
  exact ⟨.refl _, rfl, fun _ => ⟨rfl, rfl⟩⟩

/-- A pipeline cut earlier has the first of the active filters of one cut later. -/
theorem activeFilters_cutAt (p : Pipeline) (o : Options) {stage stage' : Nat}
    (hle : stage ≤ stage') :
    (p.cutAt stage).activeFilters o =
      ((p.cutAt stage').activeFilters o).take ((p.cutAt stage).activeFilters o).length := by
  have hfront : p.filters.take stage <+: p.filters.take stage' := List.take_prefix_take_left hle
  exact List.prefix_iff_eq_take.mp (hfront.filter _)

/-- The active filters stem with stem filters of the pipeline. -/
theorem stemFilters_activeFilters (p : Pipeline) (o : Options) :
    (p.activeFilters o).flatMap Filter.stemFilters ⊆ p.stemFilters :=
  (List.filter_sublist.flatMap Filter.stemFilters).subset

/-- A pipeline that is cut has no stem filters but its own. -/
theorem stemFilters_cutAt (p : Pipeline) (stage : Nat) :
    (p.cutAt stage).stemFilters ⊆ p.stemFilters :=
  ((List.take_sublist stage p.filters).flatMap Filter.stemFilters).subset

/-- The fates in a pipeline that is cut are those in front of the active filters that it keeps. -/
theorem fates_cutAt (p : Pipeline) (o : Options) (text : String) (stage : Nat) (w : Workspace) :
    (p.cutAt stage).fates o text w =
      (p.feeding o text ((p.cutAt stage).activeFilters o)).fates w := by
  rw [fates, streamOfText_eq_feeding]
  rfl

/-- A token that is dropped comes to no later stage. -/
theorem fates_eq_none_of_le (p : Pipeline) (o : Options) (text : String)
    (hw : w.Sound stemmers owned) (hp : p.stemFilters ⊆ owned) {stage stage' : Nat}
    (hle : stage ≤ stage') {place : Nat}
    (h : ((p.cutAt stage).fates o text w)[place]? = some none) :
    ((p.cutAt stage').fates o text w)[place]? = some none := by
  have hstems : ((p.cutAt stage').activeFilters o).flatMap Filter.stemFilters ⊆ owned :=
    List.Subset.trans ((p.cutAt stage').stemFilters_activeFilters o)
      (List.Subset.trans (p.stemFilters_cutAt stage') hp)
  have hcount : ((p.cutAt stage).activeFilters o).length ≤
      ((p.cutAt stage').activeFilters o).length := by
    rw [p.activeFilters_cutAt o hle]
    exact List.length_take_le' _ _
  have hfront := (p.cutAt stage').fates_feeding_take o text hw hstems
    ((p.cutAt stage).activeFilters o).length
  have hall := (p.cutAt stage').fates_feeding_take o text hw hstems
    ((p.cutAt stage').activeFilters o).length
  rw [← p.activeFilters_cutAt o hle] at hfront
  rw [List.take_length] at hall
  have hcut : p.feeding o text = (p.cutAt stage').feeding o text := rfl
  rw [fates_cutAt, hcut, hfront, List.getElem?_map] at h
  obtain ⟨a, ha, hnone⟩ := Option.map_eq_some_iff.mp h
  rw [fates_cutAt, hcut, hall, List.getElem?_map, ha]
  exact congrArg some (a.fate_eq_none_of_le hcount hnone)

/-- In front of the first stage the tokens are those of the tokenizer. -/
theorem fates_cutAt_zero (p : Pipeline) (o : Options) (text : String) (w : Workspace) :
    (p.cutAt 0).fates o text w =
      (((ofTokenizer p.tokenizer).streamOfText o text).drain w).1.map some := by
  rw [Stream.drain_fst, fates_cutAt, streamOfText_eq_feeding]
  exact fatesFrom_nil w _ _

/-- At every stage, as many tokens are accounted for as the tokenizer writes. -/
theorem length_fates_cutAt (p : Pipeline) (o : Options) (text : String) (stage : Nat)
    (w : Workspace) :
    ((p.cutAt stage).fates o text w).length = (p.streamOfText o text).pending.length := by
  rw [fates_cutAt, Stream.length_fates, streamOfText_eq_feeding]
  rfl

end Pipeline

end TextAnalysis
