import Mathlib.Data.List.Pairwise
import TextAnalysis.Proofs.Splitting

/-!
# What a search finds

A text is cut from left to right, and the matches that are found are spans of it. For an expression
that matches no empty text, three things say which spans these are: each is what the expression
matches where the span begins; they come in order and do not overlap; and wherever a match could
begin, one of them is in the way. Nothing else about the search matters to those who look at
its matches.

Main statements: `exists_finds`, that the cuts of a text are at such spans, and
`Tokenizer.forall₂_drain_of_finds`, that the tokens for the matches of a pattern lie on them.
-/

set_option autoImplicit false

namespace TextAnalysis

open Text (Span byteLength)

/-! ## Places in a text -/

namespace Text

/-- The text goes on behind its first `i` characters with one that has the property. -/
def IsAt (p : Char → Bool) (text : List Char) (i : Nat) : Prop := ∃ c ∈ text[i]?, p c = true

namespace Span

variable {text : List Char} {p : Char → Bool} (s : Span text)

/-- Behind what stands before a span, the text goes on with the span and what follows it. -/
theorem getElem?_before_add (k : Nat) :
    text[s.before.length + k]? = (s.inside ++ s.after)[k]? := by
  have htext : text[s.before.length + k]? =
      (s.before ++ (s.inside ++ s.after))[s.before.length + k]? := by
    rw [← List.append_assoc, s.parts]
  rw [htext, List.getElem?_append_right (Nat.le_add_right _ _), Nat.add_sub_cancel_left]

/-- Behind the end of the span it goes on with what follows the span. -/
theorem getElem?_stop_add (k : Nat) : text[s.stop + k]? = s.after[k]? := by
  rw [stop, Nat.add_assoc, s.getElem?_before_add,
    List.getElem?_append_right (Nat.le_add_right _ _), Nat.add_sub_cancel_left]

/-- Between its ends the text is what is inside the span. -/
theorem getElem?_inside {i : Nat} (hi : s.before.length ≤ i) (hlt : i < s.stop) :
    text[i]? = s.inside[i - s.before.length]? := by
  rw [stop] at hlt
  obtain ⟨k, rfl⟩ := Nat.exists_eq_add_of_le hi
  rw [s.getElem?_before_add, Nat.add_sub_cancel_left, List.getElem?_append_left (by omega)]

/-- A span is followed by a character without the property, or by nothing. -/
theorem not_isAt_stop (h : ∀ c ∈ s.after.head?, p c = false) : ¬ IsAt p text s.stop := by
  rintro ⟨c, hc, htrue⟩
  rw [← Nat.add_zero s.stop, s.getElem?_stop_add, ← List.head?_eq_getElem?] at hc
  rw [h c hc] at htrue
  cases htrue

namespace IsRun

variable {s}

/-- All characters of a run have the property. -/
theorem isAt (h : s.IsRun p) {i : Nat} (hi : s.before.length ≤ i) (hlt : i < s.stop) :
    IsAt p text i := by
  have hlength : i - s.before.length < s.inside.length := by
    rw [stop] at hlt
    omega
  rw [IsAt, s.getElem?_inside hi hlt, List.getElem?_eq_getElem hlength]
  exact ⟨_, rfl, h.inside _ (List.getElem_mem hlength)⟩

/-- A run has an end behind its beginning. -/
theorem before_lt_stop (h : s.IsRun p) : s.before.length < s.stop :=
  Nat.lt_add_of_pos_right (List.length_pos_iff.mpr h.nonempty)

end IsRun

/-- Of two spans that come in order one is in front of the other. -/
theorem apart_of_ordered {found : List (Span text)}
    (h : found.Pairwise fun s s' => s.stop < s'.before.length) {s s' : Span text} (hs : s ∈ found)
    (hs' : s' ∈ found) (hne : s ≠ s') : s.stop < s'.before.length ∨ s'.stop < s.before.length := by
  let apart (s s' : Span text) : Prop := s.stop < s'.before.length ∨ s'.stop < s.before.length
  have hsymm : Std.Symm apart := ⟨fun _ _ h => h.symm⟩
  have hapart : found.Pairwise apart := h.imp .inl
  exact hapart.forall hs hs' hne

end Span

end Text

/-! ## Matches that are found -/

namespace Pattern

variable {e : Expr} {text : List Char}

/-- The cuts behind `before` have found the spans, and skipped what lies between them. -/
inductive Cuts.Finds {text : List Char} : List Char → List Cut → List (Span text) → Prop
  | nil (before : List Char) : Finds before [] []
  | cons {before : List Char} {c : Cut} {cuts : List Cut} {s : Span text} {found : List (Span text)}
    (hbefore : s.before = before ++ c.skipped) (hinside : s.inside = c.found)
    (hrest : Finds (s.before ++ s.inside) cuts found) : Finds before (c :: cuts) (s :: found)

/-- The expression does not match the empty text anywhere. -/
def NeverEmpty (e : Expr) : Prop :=
  ∀ (before : Option Char) (text : List Char), matchLength e before text ≠ some 0

/-- The span is what the expression matches at the place where it begins. -/
def IsMatch (e : Expr) (s : Span text) : Prop :=
  matchLength e s.before.getLast? (s.inside ++ s.after) = some s.inside.length

/-- A match of the expression begins behind the first `i` characters of the text. -/
def BeginsAt (e : Expr) (text : List Char) (i : Nat) : Prop :=
  (matchLength e (text.take i).getLast? (text.drop i)).isSome

/-- The spans are the matches that are found behind the first `start` characters. -/
structure FindsFrom (e : Expr) (text : List Char) (start : Nat) (found : List (Span text)) :
    Prop where
  isMatch : ∀ s ∈ found, IsMatch e s
  start_le : ∀ s ∈ found, start ≤ s.before.length
  ordered : found.Pairwise fun s s' => s.stop ≤ s'.before.length
  covers : ∀ i, start ≤ i → BeginsAt e text i → ∃ s ∈ found, s.before.length ≤ i ∧ i < s.stop

/-- A match does not reach beyond the end of the text. -/
theorem le_of_run_eq_some {before : Option Char} {alive : List Expr} {count n : Nat}
    {best : Option Nat} {text : List Char} (hbest : ∀ b ∈ best, b ≤ count)
    (h : run before alive count best text = some n) : n ≤ count + text.length := by
  induction text generalizing before alive count best with
  | nil =>
    rw [run] at h
    split at h
    · exact (Option.some.inj h).symm.le
    · exact hbest n h
  | cons c rest ih =>
    rw [run] at h
    have hlatest : ∀ b ∈ (if (frontier ⟨before, some c⟩ alive).2 then some count else best),
        b ≤ count := by
      split
      · exact fun b hb => (Option.some.inj hb).symm.le
      · exact hbest
    dsimp only at h
    split at h
    · exact (hlatest n h).trans (Nat.le_add_right _ _)
    · have hrest := ih (fun b hb => (hlatest b hb).trans (Nat.le_succ _)) h
      rw [List.length_cons]
      omega

/-- A match is no longer than the text. -/
theorem length_le_of_matchLength {before : Option Char} {n : Nat}
    (h : matchLength e before text = some n) : n ≤ text.length := by
  have hle := le_of_run_eq_some (by simp) h
  omega

/-- At the end of a text there is nothing left but an empty match. -/
theorem NeverEmpty.matchLength_nil (he : NeverEmpty e) (before : Option Char) :
    matchLength e before [] = none := by
  cases h : matchLength e before [] with
  | none => rfl
  | some n =>
    have hn : n = 0 := Nat.le_zero.mp (length_le_of_matchLength h)
    rw [hn] at h
    exact absurd h (he before [])

/-- An expression that never matches the empty text finds nothing in it. -/
theorem NeverEmpty.cuts_nil (he : NeverEmpty e) : (Cuts.ofText e []).cuts = [] := by
  rw [Cuts.ofText, Cuts.collect, he.matchLength_nil]
  rfl

/-- Whether a match begins somewhere is seen from the text there. -/
theorem beginsAt_of_parts {before rest : List Char} (hparts : before ++ rest = text) :
    BeginsAt e text before.length ↔ (matchLength e before.getLast? rest).isSome := by
  rw [BeginsAt, ← hparts, List.take_left, List.drop_left]

namespace FindsFrom

variable {start : Nat} {found : List (Span text)}

/-- Behind the end of the text there is nothing to be found. -/
theorem nil (he : NeverEmpty e) (h : text.length ≤ start) : FindsFrom e text start [] := by
  refine ⟨by simp, by simp, .nil, fun i hi hbegins => ?_⟩
  rw [BeginsAt, List.drop_eq_nil_of_le (h.trans hi), he.matchLength_nil] at hbegins
  cases hbegins

/-- Where no match begins the search goes on. -/
theorem of_not_beginsAt (hstart : ¬ BeginsAt e text start) (h : FindsFrom e text (start + 1) found) :
    FindsFrom e text start found := by
  refine ⟨h.isMatch, fun s hs => Nat.le_of_succ_le (h.start_le s hs), h.ordered,
    fun i hi hbegins => ?_⟩
  have hne : start ≠ i := by
    rintro rfl
    exact hstart hbegins
  exact h.covers i (by omega) hbegins

/-- Behind a match the search goes on at its end. -/
theorem cons {s : Span text} (hs : IsMatch e s) (h : FindsFrom e text s.stop found) :
    FindsFrom e text s.before.length (s :: found) := by
  refine ⟨List.forall_mem_cons.mpr ⟨hs, h.isMatch⟩, List.forall_mem_cons.mpr ⟨Nat.le_refl _, ?_⟩,
    .cons h.start_le h.ordered, fun i hi hbegins => ?_⟩
  · exact fun s' hs' => (Nat.le_add_right _ _).trans (h.start_le s' hs')
  · by_cases hinside : i < s.stop
    · exact ⟨s, List.mem_cons_self, hi, hinside⟩
    · obtain ⟨s', hs', hcovers⟩ := h.covers i (Nat.le_of_not_lt hinside) hbegins
      exact ⟨s', List.mem_cons_of_mem s hs', hcovers⟩

end FindsFrom

/-! ## Where matches begin -/

/-- The expression matches exactly where a character with the property stands. -/
def BeginsWith (e : Expr) (p : Char → Bool) : Prop :=
  ∀ (before : Option Char) (text : List Char),
    (matchLength e before text).isSome ↔ ∃ c ∈ text.head?, p c = true

namespace BeginsWith

variable {p : Char → Bool} (he : BeginsWith e p)

include he

/-- A match begins where a character with the property stands. -/
theorem beginsAt_iff {i : Nat} : BeginsAt e text i ↔ Text.IsAt p text i := by
  rw [BeginsAt, he, List.head?_drop]
  rfl

/-- A match therefore starts with such a character. -/
theorem isAt_of_isMatch {s : Span text} (h : IsMatch e s) : Text.IsAt p text s.before.length := by
  obtain ⟨c, hc, htrue⟩ := (he _ _).mp (Option.isSome_of_eq_some h)
  refine ⟨c, ?_, htrue⟩
  rw [← Nat.add_zero s.before.length, s.getElem?_before_add, ← List.head?_eq_getElem?]
  exact hc

/-- Where no match ends in front of a character with the property, matches do not touch. -/
theorem ordered {found : List (Span text)} {start : Nat} (h : FindsFrom e text start found)
    (hstop : ∀ s ∈ found, ¬ Text.IsAt p text s.stop) :
    found.Pairwise fun s s' => s.stop < s'.before.length := by
  refine h.ordered.imp_of_mem fun {s s'} hs hs' hle => Nat.lt_of_le_of_ne hle fun heq => ?_
  have hat := he.isAt_of_isMatch (h.isMatch s' hs')
  rw [← heq] at hat
  exact hstop s hs hat

end BeginsWith

/-! ## The search -/

/-- Inside a match nothing happens but that the characters pass. -/
theorem Cuts.collect_inside (before : Option Char) (inside : Nat) (text : List Char) :
    collect e before [] true inside text =
      collect e ((text.take inside).getLast?.or before) [] true 0 (text.drop inside) := by
  induction text generalizing before inside with
  | nil => simp [collect]
  | cons c rest ih =>
    cases inside with
    | zero => rfl
    | succ more =>
      rw [collect, ih, List.take_succ_cons, List.drop_succ_cons, List.getLast?_cons]
      cases (rest.take more).getLast? <;> rfl

/-- The search from a place of the text: `skipped` is what has been skipped since the last match. -/
theorem exists_finds_of_parts (he : NeverEmpty e) {before skipped rest : List Char}
    (hparts : before ++ skipped ++ rest = text) (ended : Bool) :
    ∃ found : List (Span text),
      Cuts.Finds before
          (Cuts.collect e (before ++ skipped).getLast? skipped.reverse ended 0 rest).cuts found ∧
        FindsFrom e text (before ++ skipped).length found := by
  -- by the length of the rest, of which a match takes at least one character
  induction hlength : rest.length using Nat.strongRecOn generalizing before skipped rest ended with
  | _ n ih =>
    cases rest with
    | nil =>
      refine ⟨[], ?_, .nil he (by rw [← hparts, List.append_nil])⟩
      rw [Cuts.collect, he.matchLength_nil]
      simpa using Cuts.Finds.nil before
    | cons c rest =>
      rw [List.length_cons] at hlength
      cases hmatch : matchLength e (before ++ skipped).getLast? (c :: rest) with
      | none =>
        have hbegins : ¬ BeginsAt e text (before ++ skipped).length := by
          rw [beginsAt_of_parts hparts, hmatch]
          simp
        obtain ⟨found, hfinds, hfound⟩ := @ih rest.length (by omega) before (skipped ++ [c]) rest
          (by simpa using hparts) false rfl
        rw [← List.append_assoc, List.getLast?_concat, List.reverse_append] at hfinds
        rw [← List.append_assoc, List.length_append] at hfound
        rw [Cuts.collect, hmatch]
        exact ⟨found, hfinds, hfound.of_not_beginsAt hbegins⟩
      | some count =>
        cases count with
        | zero => exact absurd hmatch (he _ _)
        | succ more =>
          have hle : more + 1 ≤ rest.length + 1 := length_le_of_matchLength hmatch
          let s : Span text := ⟨before ++ skipped, c :: rest.take more, rest.drop more, by
            rw [List.append_assoc, List.cons_append, List.take_append_drop, hparts]⟩
          have hs : IsMatch e s := by
            rw [IsMatch, List.cons_append, List.take_append_drop, hmatch, List.length_cons,
              List.length_take, Nat.min_eq_left (by omega)]
          have hlast : (rest.take more).getLast?.or (some c) = (s.before ++ s.inside).getLast? := by
            rw [List.getLast?_append_of_ne_nil _ (List.cons_ne_nil _ _), List.getLast?_cons]
            cases (rest.take more).getLast? <;> rfl
          obtain ⟨found, hfinds, hfound⟩ := @ih (rest.drop more).length
            (by rw [List.length_drop]; omega) (s.before ++ s.inside) [] (rest.drop more)
            (by rw [List.append_nil]; exact s.parts) true rfl
          rw [List.append_nil, ← hlast] at hfinds
          rw [List.append_nil, List.length_append] at hfound
          refine ⟨s :: found, ?_, .cons hs hfound⟩
          rw [Cuts.collect, hmatch]
          dsimp only
          rw [Cuts.collect_inside, List.take_succ_cons, List.reverse_reverse]
          exact .cons rfl rfl hfinds

/-- The cuts of a text are at the matches that a search from its start finds. -/
theorem exists_finds (he : NeverEmpty e) (text : List Char) :
    ∃ found : List (Span text),
      Cuts.Finds [] (Cuts.ofText e text).cuts found ∧ FindsFrom e text 0 found :=
  @exists_finds_of_parts e text he [] [] text rfl false

end Pattern

/-! ## Tokens on matches -/

/-- The pieces for the matches of a pattern stand on the spans that its cuts have found. -/
theorem Piece.matchesFrom_of_finds {text before : List Char} {cuts : List Pattern.Cut}
    {found : List (Span text)} (h : Pattern.Cuts.Finds before cuts found) :
    matchesFrom (byteLength before) cuts = found.map (ofSpan id) := by
  induction h with
  | nil => rfl
  | @cons before c cuts s found hbefore hinside hrest ih =>
    have hfirst : byteLength before + byteLength c.skipped = s.first := by
      rw [Span.first, hbefore, Text.byteLength_append]
    have hlast : s.first + byteLength c.found = byteLength (s.before ++ s.inside) := by
      rw [Span.first, Text.byteLength_append, hinside]
    simp only [matchesFrom, List.map_cons, hfirst, hlast, ih]
    rw [← hinside]
    rfl

/-- The token is annotated with the ends of the span in its text, where offsets are asked for. -/
structure Token.LiesOn (o : Options) (t : Token) {text : List Char} (s : Span text) : Prop where
  startOffset :
    t.startOffset = if o.offsets then some (Saturating.add o.firstOffset s.first) else none
  endOffset : t.endOffset = if o.offsets then some (Saturating.add o.firstOffset s.last) else none

/-- The token of a piece on a span lies on this span, -/
theorem Piece.liesOn_token (o : Options) (index : Nat) {text : List Char} (s : Span text) :
    ((ofSpan id s).token o index).LiesOn o s := by
  rw [token, apply_update]
  exact ⟨rfl, rfl⟩

/-- and holds the text of the piece. -/
theorem Piece.text_token (o : Options) (index : Nat) (p : Piece) :
    (p.token o index).text = String.ofList p.text := by
  rw [token, apply_update]

/-- The tokens for the matches of a pattern lie on the spans that its cuts have found, and hold what
is inside. -/
theorem Tokenizer.forall₂_drain_of_finds {p : Pattern} (he : Pattern.NeverEmpty p.expr)
    (o : Options) (htokenize : o.tokenize = true) (text : String) (w : Workspace)
    {found : List (Span text.toList)}
    (hfinds : Pattern.Cuts.Finds [] (p.cut text.toList).cuts found) :
    List.Forall₂ (fun t s => t.text = String.ofList s.inside ∧ t.LiesOn o s)
      (((regex p false).tokenize o text).drain w).1 found := by
  have hnil : (regex p false).pieces [] = [] := congrArg (Piece.matchesFrom 0) he.cuts_nil
  have hpieces : (regex p false).pieces text.toList = found.map (Piece.ofSpan id) :=
    Piece.matchesFrom_of_finds hfinds
  rw [drain_tokenize, htokenize, cut_true hnil, hpieces]
  refine List.forall₂_iff_get.mpr ⟨by simp, fun k _ _ => ?_⟩
  rw [List.get_eq_getElem, List.getElem_mapIdx, List.getElem_map]
  exact ⟨Piece.text_token o k _, Piece.liesOn_token o k _⟩

end TextAnalysis
