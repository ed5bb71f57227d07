import TextAnalysis.Proofs.Stopping

/-!
# What a stop filter makes of a list of tokens

A stop filter decides about every token by its text alone, and what becomes of a token that it stops
is for the token to say. All that goes from one token to the next is the last position given. That is
told here without the filter at work: a token counts if the filter renumbers, lets the token pass, and
finds a position in it, and the tokens that count are numbered without gaps from the position of the
first of them.

The invariant is that the last position given is the one before the next number (`LeavesOff`). A
token that passes keeps it (`LeavesOff.renumbered`), and so do the others, which do not count. Main
statement: `stop_filter_drops_marks_and_numbers`.
-/

set_option autoImplicit false

namespace TextAnalysis

namespace StopFilter

variable (f : StopFilter)

/-- Is the token to be stopped? Its text is too short, too long, or a stop word. -/
def Stops (t : Token) : Prop :=
  t.text.length < f.minSize ∨ (∃ most, f.maxSize = some most ∧ most < t.text.length) ∨
    t.text ∈ f.words

/-- The filter stops a text exactly for one of its three reasons. -/
theorem stops_iff (t : Token) : f.stops t.text = true ↔ f.Stops t := by
  simp only [stops, isStopWord, Stops, Bool.or_eq_true, decide_eq_true_eq, Option.any_eq_true,
    or_assoc, Std.ExtTreeSet.contains_iff_mem]

instance (t : Token) : Decidable (f.Stops t) := decidable_of_iff _ (f.stops_iff t)

/-- The position of a token that counts: the filter renumbers, and does not stop the token. -/
def counted? (t : Token) : Option Nat :=
  if f.renumber = true ∧ ¬ f.Stops t then t.position else none

/-- The position of a token that is kept behind the given ones: a token that counts is numbered from
the position of the first one that does, up to the ceiling. The others keep their positions. -/
def positionBehind (before : List Token) (t : Token) : Option Nat :=
  match f.counted? t, before.filterMap f.counted? with
  | none, _ => t.position
  | some p, [] => some p
  | some _, first :: rest => some (Saturating.add first (rest.length + 1))

variable {f}

/-- A token that is stopped is not counted, -/
theorem counted?_of_stops {t : Token} (h : f.Stops t) : f.counted? t = none :=
  if_neg fun hcounts => hcounts.2 h

/-- and keeps its position. -/
theorem positionBehind_of_stops {t : Token} (h : f.Stops t) (before : List Token) :
    f.positionBehind before t = t.position := by
  simp only [positionBehind, counted?_of_stops h]

/-- A token that passes and does not count keeps its position and leaves no trace. -/
theorem renumbered_of_counted?_eq_none {t : Token} (hpasses : ¬ f.Stops t)
    (h : f.counted? t = none) (last : Option Nat) :
    f.renumbered last t.position = (t.position, last) := by
  cases hrenumber : f.renumber with
  | false => exact f.renumbered_of_not_renumber hrenumber last t.position
  | true =>
    rw [counted?, if_pos ⟨hrenumber, hpasses⟩] at h
    simp only [renumbered, hrenumber, h]

/-- A token that counts gets the number behind the last position given, or keeps its position where
none has been given. -/
theorem renumbered_of_counted?_eq_some {t : Token} {p : Nat} (h : f.counted? t = some p)
    (last : Option Nat) :
    f.renumbered last t.position =
      let q := last.elim p (Saturating.add · 1)
      (some q, some q) := by
  unfold counted? at h
  split at h
  · next hcounts =>
    cases last <;> simp only [renumbered, hcounts.1, h] <;> rfl
  · cases h

/-- The last position given behind the tokens that have been kept: none where no token counts, and
otherwise the one in front of the next number. -/
def LeavesOff (f : StopFilter) (before : List Token) (last : Option Nat) : Prop :=
  match before.filterMap f.counted? with
  | [] => last = none
  | first :: rest =>
    ∃ q, last = some q ∧ Saturating.add q 1 = Saturating.add first (rest.length + 1)

namespace LeavesOff

variable {before : List Token} {last : Option Nat} {t : Token}

/-- A token that does not count changes nothing. -/
theorem of_counted?_eq_none (h : f.LeavesOff before last) (ht : f.counted? t = none) :
    f.LeavesOff (before ++ [t]) last := by
  have hsame : (before ++ [t]).filterMap f.counted? = before.filterMap f.counted? := by
    rw [List.filterMap_append, List.filterMap_cons_none ht, List.filterMap_nil, List.append_nil]
  rw [LeavesOff, hsame]
  exact h

/-- A token that passes gets the position that it should have behind the others, and the filter is
ready for the next one. -/
theorem renumbered (h : f.LeavesOff before last) (hpasses : ¬ f.Stops t) :
    (f.renumbered last t.position).1 = f.positionBehind before t ∧
      f.LeavesOff (before ++ [t]) (f.renumbered last t.position).2 := by
  cases ht : f.counted? t with
  | none =>
    rw [renumbered_of_counted?_eq_none hpasses ht]
    exact ⟨by simp only [positionBehind, ht], h.of_counted?_eq_none ht⟩
  | some p =>
    have hmore : (before ++ [t]).filterMap f.counted? = before.filterMap f.counted? ++ [p] := by
      rw [List.filterMap_append, List.filterMap_cons_some ht, List.filterMap_nil]
    rw [renumbered_of_counted?_eq_some ht]
    unfold LeavesOff positionBehind at *
    rw [hmore, ht]
    cases hbefore : before.filterMap f.counted? with
    | nil =>
      rw [hbefore] at h
      obtain rfl : last = none := h
      exact ⟨rfl, p, rfl, rfl⟩
    | cons first rest =>
      rw [hbefore] at h
      obtain ⟨q, rfl, hq⟩ := h
      have hlength : (rest ++ [p]).length = rest.length + 1 := by simp
      refine ⟨congrArg some hq, _, rfl, ?_⟩
      rw [Option.elim_some, hq, Saturating.add_add]
      exact (congrArg (fun count => Saturating.add first (count + 1)) hlength).symm

end LeavesOff

variable (f)

/-- Is the token left out? It is to be stopped, and says that it is to be dropped then. -/
def Drops (t : Token) : Prop := f.Stops t ∧ t.removeStopped = true

instance (t : Token) : Decidable (f.Drops t) :=
  inferInstanceAs (Decidable (f.Stops t ∧ t.removeStopped = true))

/-- What becomes of a token that is kept behind the given ones. -/
def keep (before : List Token) (t : Token) : Token :=
  { t with stopped := decide (f.Stops t), position := f.positionBehind before t }

/-- The filter at work on tokens, behind those that it has kept already. -/
theorem tokensFrom_eq {before : List Token} {last : Option Nat} (h : f.LeavesOff before last)
    (w : Workspace) (record : Token) (ts : List Token) :
    tokensFrom w record [.working (.stop f last)] (ts.map .replace) =
      (ts.filter fun t => ¬ f.Drops t).mapIdx fun i t =>
        f.keep (before ++ (ts.filter fun t => ¬ f.Drops t).take i) t := by
  induction ts generalizing before last record w with
  | nil => rfl
  | cons t rest ih =>
    -- what is kept in front goes on with the rest behind it
    have hkept (hkeeps : ¬ f.Drops t) :
        ((t :: rest).filter fun t => ¬ f.Drops t).mapIdx (fun i u =>
            f.keep (before ++ ((t :: rest).filter fun t => ¬ f.Drops t).take i) u) =
          f.keep before t :: (rest.filter fun t => ¬ f.Drops t).mapIdx fun i u =>
            f.keep (before ++ [t] ++ (rest.filter fun t => ¬ f.Drops t).take i) u := by
      simp [List.filter_cons_of_pos, hkeeps, List.mapIdx_cons]
    rw [List.map_cons, tokensFrom, Update.apply]
    rcases Worker.step_stop_cases f last w t with
      ⟨hpasses, hstep⟩ | ⟨hstops, hmarks, hstep⟩ | ⟨hstops, hdrops, hstep⟩
    · have hstops : ¬ f.Stops t := by
        rw [← f.stops_iff, hpasses]
        exact Bool.false_ne_true
      obtain ⟨hposition, hrest⟩ := h.renumbered hstops
      rw [passThrough_cons_of_kept hstep, hkept fun hdrops => hstops hdrops.1]
      simp only [passThrough, if_true]
      rw [ih hrest, keep, hposition, decide_eq_false hstops]
    · rw [f.stops_iff] at hstops
      have hkeeps : ¬ f.Drops t := fun hdrops => by
        rw [hdrops.2] at hmarks
        cases hmarks
      rw [passThrough_cons_of_kept hstep, hkept hkeeps]
      simp only [passThrough, if_true]
      rw [ih (h.of_counted?_eq_none (counted?_of_stops hstops)), keep,
        positionBehind_of_stops hstops, decide_eq_true hstops]
    · rw [f.stops_iff] at hstops
      have hdrops' : f.Drops t := ⟨hstops, hdrops⟩
      have hgone : (t :: rest).filter (fun t => ¬ f.Drops t) = rest.filter fun t => ¬ f.Drops t :=
        List.filter_cons_of_neg (by simpa using hdrops')
      rw [passThrough_cons_of_dropped hstep, hgone]
      exact ih h w t

end StopFilter

/-- A stop filter leaves out the tokens that it stops and that are to be dropped then, and keeps the
others in order. It marks those that it stops, takes the mark off the others, and changes nothing
else but the positions of the tokens that count: these go on from the position of the first one
without a gap, up to the ceiling. -/
theorem stop_filter_drops_marks_and_numbers (f : StopFilter) (ts : List Token) (keepForms : Bool)
    (w : Workspace) :
    let kept := ts.filter fun t => ¬ (f.Stops t ∧ t.removeStopped = true)
    (((Stream.ofTokens ts).through keepForms (.stop f)).drain w).1 =
      kept.mapIdx fun i t =>
        { t with stopped := decide (f.Stops t), position := f.positionBehind (kept.take i) t } := by
  intro kept
  have hstart : f.LeavesOff [] none := rfl
  calc (((Stream.ofTokens ts).through keepForms (.stop f)).drain w).1
      = tokensFrom w {} [.working (.stop f none)] (ts.map .replace) := Stream.drain_fst w _
    _ = kept.mapIdx fun i t => f.keep ([] ++ kept.take i) t := f.tokensFrom_eq hstart w {} ts
    _ = _ := rfl

/-- A token without a position, and one that is marked, do not count. -/
example :
    let f : StopFilter := { words := ∅, renumber := true }
    let ts : List Token :=
      [{ text := "x", position := some 3 }, { text := "fox", position := some 5 }, { text := "and" },
       { text := "y", position := some 8, removeStopped := false },
       { text := "dog", position := some 8 }]
    (((Stream.ofTokens ts).through false (.stop f)).drain {}).1.map
        (fun t => (t.text, t.stopped, t.position)) =
      [("fox", false, some 5), ("and", false, none), ("y", true, some 8), ("dog", false, some 6)] := by
  decide

end TextAnalysis
