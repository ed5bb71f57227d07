import TextAnalysis.Proofs.Cutting

/-!
# Sources that work step by step

A tokenizer does not cut a text before it is asked to. It stands somewhere in the text, and one step
looks for the next piece from there; that there is none it finds out by looking, and remembers it in
one way or another. Lists of tokens and of texts are gone through in the same manner.

Each such source goes through the updates of a stream of the library: a step takes the first of
them off (`Source.next_eq`). Once a step has found nothing, all later steps find nothing and leave
everything as it is (`Source.next_next`). Main statement: `Opening.stream_eq`.
-/

set_option autoImplicit false

namespace TextAnalysis

open Text (byteLength)

/-! ## Cutting a text -/

/-- Where a tokenizer stands in a text. `done` tells that it has come to the end. -/
inductive Cutter where
  | whole (text : List Char) (done : Bool)
  | found (offset : Nat) (cuts : List Pattern.Cut) (done : Bool)
  | gaps (offset : Nat) (trailing : List Char) (cuts : List Pattern.Cut) (done : Bool)
  /-- Looks for the next match again at every step. -/
  | segments (before : List Char) (length : Nat) (cuts : List Pattern.Cut)
  | runs (m : CharMap) (offset : Nat) (rest : List Char) (done : Bool)

namespace Cutter

/-- Goes on to the next gap that is not empty. The text behind the last match is the last one. -/
def nextGap (offset : Nat) (trailing : List Char) : List Pattern.Cut → Option Piece × Cutter
  | [] => ((Piece.gapAt offset trailing).head?, gaps offset trailing [] true)
  | c :: rest =>
    let first := offset + byteLength c.skipped
    let last := first + byteLength c.found
    if c.skipped.isEmpty then nextGap last trailing rest
    else (some ⟨c.skipped, offset, first⟩, gaps last trailing rest false)

/-- Goes on to the next break behind a character that is none. -/
def nextRun (m : CharMap) (offset : Nat) (run : Option (Nat × List Char)) :
    List Char → Option Piece × Cutter
  | [] => (run.map fun r => ⟨r.2.reverse, r.1, offset⟩, runs m offset [] true)
  | c :: rest =>
    match m.replace? c, run with
    | some image, some (first, text) =>
      nextRun m (offset + c.utf8Size) (some (first, image.reverse ++ text)) rest
    | some image, none => nextRun m (offset + c.utf8Size) (some (offset, image.reverse)) rest
    | none, some (first, text) =>
      (some ⟨text.reverse, first, offset⟩, runs m (offset + c.utf8Size) rest false)
    | none, none => nextRun m (offset + c.utf8Size) none rest

/-- One step: the next piece, where there is one. -/
def next : Cutter → Option Piece × Cutter
  | whole text true => (none, whole text true)
  | whole text false => (some (.ofWhole text), whole text true)
  | found offset cuts true => (none, found offset cuts true)
  | found offset [] false => (none, found offset [] true)
  | found offset (c :: rest) false =>
    let first := offset + byteLength c.skipped
    let last := first + byteLength c.found
    (some ⟨c.found, first, last⟩, found last rest false)
  | gaps offset trailing cuts true => (none, gaps offset trailing cuts true)
  | gaps offset trailing cuts false => nextGap offset trailing cuts
  | segments before length [] => (none, segments before length [])
  | segments before length (c :: rest) =>
    let upTo := c.found.reverse ++ (c.skipped.reverse ++ before)
    let last := length + byteLength c.skipped + byteLength c.found
    (some ⟨upTo.reverse, 0, last⟩, segments upTo last rest)
  | runs m offset rest true => (none, runs m offset rest true)
  | runs m offset rest false => nextRun m offset none rest

/-- The pieces to come. -/
def left : Cutter → List Piece
  | whole text done => if done then [] else [.ofWhole text]
  | found offset cuts done => if done then [] else Piece.matchesFrom offset cuts
  | gaps offset trailing cuts done => if done then [] else Piece.gapsFrom offset trailing cuts
  | segments before length cuts => Piece.segmentEnds before length cuts
  | runs m offset rest done => if done then [] else Piece.runsFrom m offset none rest

/-- The next gap is the first of the gaps to come, and leaves the others. -/
theorem nextGap_eq (offset : Nat) (trailing : List Char) (cuts : List Pattern.Cut) :
    (nextGap offset trailing cuts).1 = (Piece.gapsFrom offset trailing cuts).head? ∧
      (nextGap offset trailing cuts).2.left = (Piece.gapsFrom offset trailing cuts).tail := by
  induction cuts generalizing offset with
  | nil =>
    refine ⟨rfl, ?_⟩
    unfold nextGap Piece.gapsFrom Piece.gapAt
    split <;> rfl
  | cons c rest ih =>
    rw [nextGap, Piece.gapsFrom, Piece.gapAt]
    by_cases hskipped : c.skipped.isEmpty = true
    · rw [if_pos hskipped, if_pos hskipped, List.nil_append]
      exact ih _
    · rw [if_neg hskipped, if_neg hskipped]
      exact ⟨rfl, rfl⟩

/-- The next run is the first of the runs to come, and leaves the others. -/
theorem nextRun_eq (m : CharMap) (offset : Nat) (run : Option (Nat × List Char))
    (text : List Char) :
    (nextRun m offset run text).1 = (Piece.runsFrom m offset run text).head? ∧
      (nextRun m offset run text).2.left = (Piece.runsFrom m offset run text).tail := by
  induction text generalizing offset run with
  | nil => cases run <;> exact ⟨rfl, rfl⟩
  | cons c rest ih =>
    -- The scan stops at a break behind a run, and only there.
    cases hc : m.replace? c <;> cases run <;> simp only [nextRun, Piece.runsFrom, hc]
    case none.none => exact ih _ _
    case none.some => exact ⟨rfl, rfl⟩
    case some.none => exact ih _ _
    case some.some => exact ih _ _

/-- A step takes the first of the pieces to come. -/
theorem next_eq (c : Cutter) : c.next.1 = c.left.head? ∧ c.next.2.left = c.left.tail := by
  cases c with
  | whole text done => cases done <;> exact ⟨rfl, rfl⟩
  | found offset cuts done =>
    cases done with
    | true => exact ⟨rfl, rfl⟩
    | false => cases cuts <;> exact ⟨rfl, rfl⟩
  | gaps offset trailing cuts done =>
    cases done with
    | true => exact ⟨rfl, rfl⟩
    | false => exact nextGap_eq offset trailing cuts
  | segments before length cuts => cases cuts <;> exact ⟨rfl, rfl⟩
  | runs m offset rest done =>
    cases done with
    | true => exact ⟨rfl, rfl⟩
    | false => exact nextRun_eq m offset none rest

/-- Where there is no gap any more, the tokenizer has come to the end, -/
theorem nextGap_of_eq_none {offset : Nat} {trailing : List Char} {cuts : List Pattern.Cut}
    (h : (nextGap offset trailing cuts).1 = none) :
    ∃ last, (nextGap offset trailing cuts).2 = gaps last trailing [] true := by
  induction cuts generalizing offset with
  | nil => exact ⟨offset, rfl⟩
  | cons c rest ih =>
    rw [nextGap] at h ⊢
    by_cases hskipped : c.skipped.isEmpty = true
    · rw [if_pos hskipped] at h ⊢
      exact ih h
    · rw [if_neg hskipped] at h
      cases h

/-- and so it has where there is no run any more. -/
theorem nextRun_of_eq_none {m : CharMap} {offset : Nat} {run : Option (Nat × List Char)}
    {text : List Char} (h : (nextRun m offset run text).1 = none) :
    ∃ last, (nextRun m offset run text).2 = runs m last [] true := by
  induction text generalizing offset run with
  | nil => exact ⟨offset, rfl⟩
  | cons c rest ih =>
    cases hc : m.replace? c <;> cases run <;> simp only [nextRun, hc] at h ⊢
    case none.none => exact ih h
    case none.some => cases h
    case some.none => exact ih h
    case some.some => exact ih h

/-- A tokenizer that has found nothing goes on to find nothing, and stays where it is. -/
theorem next_next {c : Cutter} (h : c.next.1 = none) : c.next.2.next = (none, c.next.2) := by
  cases c with
  | whole text done =>
    cases done with
    | true => rfl
    | false => cases h
  | found offset cuts done =>
    cases done with
    | true => rfl
    | false =>
      cases cuts with
      | nil => rfl
      | cons c rest => cases h
  | gaps offset trailing cuts done =>
    cases done with
    | true => rfl
    | false =>
      obtain ⟨last, hlast⟩ := nextGap_of_eq_none h
      rw [next, hlast]
      rfl
  | segments before length cuts =>
    cases cuts with
    | nil => rfl
    | cons c rest => cases h
  | runs m offset rest done =>
    cases done with
    | true => rfl
    | false =>
      obtain ⟨last, hlast⟩ := nextRun_of_eq_none h
      rw [next, hlast]
      rfl

end Cutter

/-! ## Sources of updates -/

/-- What writes tokens into a record: nothing, a list of tokens, a list of texts with the place of
the next one, or a tokenizer with the number of its next piece. -/
inductive Source where
  | nothing
  | tokens (rest : List Token)
  | texts (o : Options) (position offset : Nat) (rest : List String)
  | pieces (o : Options) (index : Nat) (c : Cutter)

namespace Source

/-- One step: the next update, where there is one. -/
def next : Source → Option Update × Source
  | nothing => (none, nothing)
  | tokens [] => (none, tokens [])
  | tokens (t :: rest) => (some (.replace t), tokens rest)
  | texts o position offset [] => (none, texts o position offset [])
  | texts o position offset (text :: rest) =>
    let after := Saturating.add offset text.utf8ByteSize
    (some (.load text false (if o.positions then some position else none)
      (if o.offsets then some (offset, after) else none)),
      texts o (Saturating.add position 1) after rest)
  | pieces o index c =>
    match c.next with
    | (some p, c) => (some (p.update o index), pieces o (index + 1) c)
    | (none, c) => (none, pieces o index c)

/-- The updates to come. -/
def updates : Source → List Update
  | nothing => []
  | tokens rest => rest.map .replace
  | texts o position offset rest => Stream.updatesOfTexts o position offset rest
  | pieces o index c => Piece.updatesFrom o index c.left

/-- A step takes the first of the updates to come. -/
theorem next_eq (s : Source) : s.next.1 = s.updates.head? ∧ s.next.2.updates = s.updates.tail := by
  cases s with
  | nothing => exact ⟨rfl, rfl⟩
  | tokens rest => cases rest <;> exact ⟨rfl, rfl⟩
  | texts o position offset rest => cases rest <;> exact ⟨rfl, rfl⟩
  | pieces o index c =>
    have hcutter := c.next_eq
    simp only [next, updates]
    rcases hnext : c.next with ⟨_ | p, c'⟩
    · rw [hnext] at hcutter
      have hleft : c.left = [] := List.head?_eq_none_iff.mp hcutter.1.symm
      have hleft' : c'.left = [] := by rw [hcutter.2, hleft, List.tail_nil]
      simp only [hleft, hleft']
      exact ⟨rfl, rfl⟩
    · rw [hnext] at hcutter
      obtain ⟨rest, hleft⟩ := List.head?_eq_some_iff.mp hcutter.1.symm
      have hleft' : c'.left = rest := by rw [hcutter.2, hleft, List.tail_cons]
      simp only [hleft, hleft']
      exact ⟨rfl, rfl⟩

/-- A source that has found nothing goes on to find nothing, and stays as it is. -/
theorem next_next {s : Source} (h : s.next.1 = none) : s.next.2.next = (none, s.next.2) := by
  cases s with
  | nothing => rfl
  | tokens rest =>
    cases rest with
    | nil => rfl
    | cons t rest => cases h
  | texts o position offset rest =>
    cases rest with
    | nil => rfl
    | cons text rest => cases h
  | pieces o index c =>
    rw [next] at h ⊢
    rcases hnext : c.next with ⟨_ | p, c'⟩
    · have hcutter := c.next_next (by rw [hnext])
      rw [hnext] at hcutter
      simp only [next, hcutter]
    · rw [hnext] at h
      cases h

end Source

/-! ## Opening a source -/

/-- The ways to open a source. -/
inductive Opening where
  | tokenizer (t : Tokenizer) (o : Options) (text : String)
  | tokens (tokens : List Token)
  | texts (o : Options) (texts : List String)
  | single (o : Options) (text : String)
  | empty

/-- Where a tokenizer stands at first. -/
def Tokenizer.cutter (t : Tokenizer) (text : List Char) : Cutter :=
  match t with
  | regex p false => .found 0 (p.cut text).cuts false
  | regex p true => .gaps 0 (p.cut text).rest (p.cut text).cuts false
  | path p => .segments [] 0 (p.cut text).cuts
  | charset m => .runs m 0 text false
  | whole => .whole text text.isEmpty

/-- A tokenizer starts with all of its pieces to come. -/
theorem Tokenizer.left_cutter (t : Tokenizer) (text : List Char) :
    (t.cutter text).left = t.pieces text := by
  cases t with
  | regex p gaps => cases gaps <;> rfl
  | path p => rfl
  | charset m => rfl
  | whole => cases text <;> rfl

namespace Opening

/-- The record and the source as they are opened. An empty text gives nothing to a tokenizer that
would cut it. -/
def start : Opening → Token × Source
  | tokenizer t o text =>
    let t := if o.tokenize then t else .whole
    if text.isEmpty && t ≠ .whole then ({}, .nothing)
    else (.ofOptions o, .pieces o 0 (t.cutter text.toList))
  | tokens ts => ({}, .tokens ts)
  | texts o ts => (.ofOptions o, .texts o o.firstPosition o.firstOffset ts)
  | single o text => (.ofOptions o, .pieces o 0 (Tokenizer.whole.cutter text.toList))
  | empty => ({}, .nothing)

/-- The stream of the library. -/
def stream : Opening → Stream
  | tokenizer t o text => t.tokenize o text
  | tokens ts => .ofTokens ts
  | texts o ts => .ofTexts o ts
  | single o text => Tokenizer.whole.tokenize o text
  | empty => {}

/-- The stream of the library has the updates of the source. -/
theorem stream_eq (x : Opening) : x.stream = ⟨x.start.1, x.start.2.updates, []⟩ := by
  cases x with
  | tokens ts => rfl
  | texts o ts => rfl
  | empty => rfl
  | tokenizer t o text =>
    simp only [stream, start, Tokenizer.tokenize]
    generalize (if o.tokenize then t else .whole) = t'
    split
    · rfl
    · simp only [Source.updates, Tokenizer.left_cutter]
  | single o text =>
    simp [stream, start, Tokenizer.tokenize, Source.updates, Tokenizer.left_cutter]

end Opening

end TextAnalysis
