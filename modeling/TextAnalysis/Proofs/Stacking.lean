import TextAnalysis.Proofs.Stopping

/-!
# Stop filters one behind the other

A stop filter decides on every token anew, whether or not a filter in front of it has marked the
token. So a token that goes through two stop filters is dropped where one of them drops it, but it
is marked only where the second one marks it: of two filters that mark, the first shows nowhere.

Main statement: `stacked_stop_filters`, what two stop filters with the same size limits do in terms
of the one that has the words of both, and exactly when they do the same.
-/

set_option autoImplicit false

namespace TextAnalysis

namespace StopFilter

/-- Marks a token where the filter stops it, and takes the mark off where it does not. -/
def mark (f : StopFilter) (t : Token) : Token := { t with stopped := f.stops t.text }

/-- What a stop filter that does not renumber makes of a token. -/
def pass (f : StopFilter) (t : Token) : Option Token :=
  if f.stops t.text && t.removeStopped then none else some (f.mark t)

/-- What stop filters that do not renumber make of a token, one after the other. -/
def passAll (fs : List StopFilter) (t : Token) : Option Token :=
  fs.foldlM (fun t f => f.pass t) t

/-- What a filter stops is dropped or marked, -/
theorem pass_of_stops {f : StopFilter} {t : Token} (h : f.stops t.text = true) :
    f.pass t = if t.removeStopped then none else some { t with stopped := true } := by
  rw [pass, mark, h, Bool.true_and]

/-- and what it does not stop loses its mark. -/
theorem pass_of_not_stops {f : StopFilter} {t : Token} (h : f.stops t.text = false) :
    f.pass t = some { t with stopped := false } := by
  rw [pass, mark, h, Bool.false_and, if_neg Bool.false_ne_true]

/-- A list of one filter does what the filter does. -/
theorem passAll_singleton (f : StopFilter) : passAll [f] = f.pass :=
  funext fun t => Option.bind_fun_some (f.pass t)

/-- The filters of a list act one after the other. -/
theorem passAll_cons (f : StopFilter) (fs : List StopFilter) (t : Token) :
    passAll (f :: fs) t = (f.pass t).bind (passAll fs) :=
  rfl

end StopFilter

/-- A stop filter that does not renumber remembers nothing. -/
theorem Worker.step_stop_of_not_renumber {f : StopFilter} (h : f.renumber = false) (w : Workspace)
    (t : Token) :
    (stop f none).step w t = ⟨w, stop f none, (f.pass t).getD t, (f.pass t).isSome⟩ := by
  rcases step_stop_cases f none w t with
    ⟨hpasses, hstep⟩ | ⟨hstops, hmarks, hstep⟩ | ⟨hstops, hdrops, hstep⟩
  · rw [hstep, f.renumbered_of_not_renumber h, StopFilter.pass_of_not_stops hpasses]
    rfl
  · have hpass : f.pass t = some { t with stopped := true } := by
      rw [StopFilter.pass_of_stops hstops, if_neg (by rw [hmarks]; exact Bool.false_ne_true)]
    rw [hstep, hpass]
    rfl
  · have hpass : f.pass t = none := by rw [StopFilter.pass_of_stops hstops, if_pos hdrops]
    rw [hstep, hpass]
    rfl

/-- The stop filters at work. -/
def StopFilter.atWork (fs : List StopFilter) : List Running :=
  fs.map fun f => .working (.stop f none)

/-- A token that passes stop filters that do not renumber leaves them, and the workspace, as they
were. -/
theorem passThrough_stopFilters {fs : List StopFilter} (hfs : ∀ f ∈ fs, f.renumber = false)
    (w : Workspace) (t : Token) :
    ∃ t', passThrough w t (StopFilter.atWork fs) =
        ⟨w, StopFilter.atWork fs, t', (StopFilter.passAll fs t).isSome⟩ ∧
      ∀ u, StopFilter.passAll fs t = some u → t' = u := by
  induction fs generalizing t with
  | nil => exact ⟨t, rfl, fun u hu => Option.some.inj hu⟩
  | cons f rest ih =>
    have hstep := Worker.step_stop_of_not_renumber (hfs f List.mem_cons_self) w t
    rw [StopFilter.passAll_cons]
    cases hpass : f.pass t with
    | none =>
      rw [hpass] at hstep
      exact ⟨t, passThrough_cons_of_dropped hstep _, nofun⟩
    | some t₁ =>
      rw [hpass] at hstep
      obtain ⟨t', hrest, htoken⟩ := ih (fun g hg => hfs g (List.mem_cons_of_mem _ hg)) t₁
      refine ⟨t', ?_, htoken⟩
      have hcons := passThrough_cons_of_kept hstep (StopFilter.atWork rest)
      rw [Option.getD_some, hrest] at hcons
      exact hcons

/-- What stop filters that do not renumber leave of the tokens of a stream. -/
theorem tokensFrom_stopFilters {fs : List StopFilter} (hfs : ∀ f ∈ fs, f.renumber = false)
    (w : Workspace) (record : Token) (ts : List Token) :
    tokensFrom w record (StopFilter.atWork fs) (ts.map .replace) =
      ts.filterMap (StopFilter.passAll fs) := by
  induction ts generalizing record with
  | nil => rfl
  | cons t rest ih =>
    obtain ⟨t', hpass, htoken⟩ := passThrough_stopFilters hfs w t
    rw [List.map_cons, tokensFrom, Update.apply, hpass, List.filterMap_cons]
    dsimp only
    rw [ih]
    cases hall : StopFilter.passAll fs t with
    | none => rfl
    | some u => rw [htoken u hall]; rfl

namespace StopFilter

variable (f : StopFilter) (a b : WordSet)

/-- A stop filter with the words of two stops what one of them stops. -/
theorem stops_union (text : String) :
    { f with words := a ∪ b }.stops text =
      ({ f with words := a }.stops text || { f with words := b }.stops text) := by
  unfold stops isStopWord
  rw [Std.ExtTreeSet.contains_union]
  simp only [Bool.or_assoc, Bool.or_left_comm, Bool.or_self_left]

/-- The second of two stop filters drops what the first has left of its words, and marks anew. -/
theorem passAll_pair (t : Token) :
    passAll [{ f with words := a }, { f with words := b }] t =
      ({ f with words := a ∪ b }.pass t).map { f with words := b }.mark := by
  simp only [passAll, List.foldlM_cons, List.foldlM_nil, pass, mark, stops_union]
  cases { f with words := a }.stops t.text <;> cases hb : { f with words := b }.stops t.text <;>
    cases t.removeStopped <;> simp [mark, hb]

/-- Marking anew changes nothing where both filters stop the same. -/
theorem mark_mark_eq_iff (f g : StopFilter) (t : Token) :
    g.mark (f.mark t) = f.mark t ↔ g.stops t.text = f.stops t.text := by
  rw [mark, mark, Token.mk.injEq]
  simp only [true_and, and_true]

/-- What the filter with the words of both keeps is marked as by the second filter, unless it is
marked for the first one only. -/
theorem mark_of_pass_union_iff (t : Token) :
    (∀ u, { f with words := a ∪ b }.pass t = some u → { f with words := b }.mark u = u) ↔
      (t.removeStopped = false →
        { f with words := a }.stops t.text = true → { f with words := b }.stops t.text = true) := by
  rw [pass]
  split
  · next hdrops =>
    have hremove : t.removeStopped = true := (Bool.and_eq_true_iff.mp hdrops).2
    simp [hremove]
  · next hkeeps =>
    simp only [Option.some.injEq, forall_eq', mark_mark_eq_iff]
    rw [stops_union] at hkeeps ⊢
    cases ha : { f with words := a }.stops t.text with
    | false => simp
    | true =>
      rw [ha, Bool.true_or, Bool.true_and, Bool.not_eq_true] at hkeeps
      simp [hkeeps]

end StopFilter

/-- Two stop filters with the same size limits, one behind the other, keep the tokens that the
filter with the words of both keeps, and mark those that the second one stops. So they do what that
filter does exactly where every token that is to be marked for the first is to be marked for the
second. -/
theorem stacked_stop_filters (a b : WordSet) (minSize : Nat) (maxSize : Option Nat)
    (ts : List Token) (keepForms : Bool) (v w : Workspace) :
    let stop (words : WordSet) : StopFilter := { words, minSize, maxSize, renumber := false }
    let source := Stream.ofTokens ts
    let stacked :=
      (((source.through keepForms (.stop (stop a))).through keepForms (.stop (stop b))).drain v).1
    let single := ((source.through keepForms (.stop (stop (a ∪ b)))).drain w).1
    stacked = single.map (stop b).mark ∧
      (stacked = single ↔
        ∀ t ∈ ts, t.removeStopped = false →
          (stop a).stops t.text = true → (stop b).stops t.text = true) := by
  intro stop source stacked single
  have htwo : ∀ f ∈ [stop a, stop b], f.renumber = false := by simp [stop]
  have hone : ∀ f ∈ [stop (a ∪ b)], f.renumber = false := by simp [stop]
  have hstacked : stacked = ts.filterMap (StopFilter.passAll [stop a, stop b]) :=
    (Stream.drain_fst v _).trans (tokensFrom_stopFilters htwo v {} ts)
  have hsingle : single = ts.filterMap (stop (a ∪ b)).pass := by
    rw [← StopFilter.passAll_singleton]
    exact (Stream.drain_fst w _).trans (tokensFrom_stopFilters hone w {} ts)
  have hmap : stacked = single.map (stop b).mark := by
    rw [hstacked, hsingle, List.map_filterMap]
    congr 1
    funext t
    exact (stop a).passAll_pair a b t
  refine ⟨hmap, ?_⟩
  calc stacked = single
      ↔ single.map (stop b).mark = single.map id := by rw [hmap, List.map_id]
    _ ↔ ∀ u ∈ single, (stop b).mark u = u := List.map_eq_map_iff
    _ ↔ ∀ t ∈ ts, t.removeStopped = false → (stop a).stops t.text = true →
          (stop b).stops t.text = true := by
      rw [hsingle, List.forall_mem_filterMap]
      exact forall_congr' fun t => forall_congr' fun _ => (stop a).mark_of_pass_union_iff a b t

/-- A token that the stop filter for one word has marked loses the mark in the stop filter for
another word, where the stop filter for both words marks it. -/
theorem later_stop_filter_unmarks :
    let stop (words : WordSet) : Filter := .stop { words := words }
    let source := Stream.ofTokens [{ text := "the", removeStopped := false }]
    let a := WordSet.ofWords ["the"]
    let b := WordSet.ofWords ["a"]
    let stacked := (((source.through false (stop a)).through false (stop b)).drain {}).1
    let single := ((source.through false (stop (a ∪ b))).drain {}).1
    stacked.map Token.stopped = [false] ∧ single.map Token.stopped = [true] ∧ stacked ≠ single := by
  intro stop source a b stacked single
  have hstacked : stacked.map Token.stopped = [false] := by decide
  have hsingle : single.map Token.stopped = [true] := by decide
  refine ⟨hstacked, hsingle, fun heq => ?_⟩
  rw [heq, hsingle] at hstacked
  cases hstacked

end TextAnalysis
