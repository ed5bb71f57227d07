import TextAnalysis.Pipeline
import TextAnalysis.Proofs.Advancing

/-!
# All tokens of a stream

Draining a stream takes its steps one by one. For statements about all tokens at once it is easier to
go through the updates instead: `tokensFrom` lists the tokens that the updates leave behind the
filters. Main statements: `Stream.drain_fst` and `Stream.drain_ended`, that these are all tokens of
the stream.
-/

set_option autoImplicit false

namespace TextAnalysis

/-- The tokens that the updates leave behind the filters. -/
def tokensFrom (w : Workspace) (record : Token) (filters : List Running) :
    List Update → List Token
  | [] => []
  | u :: rest =>
    let p := passThrough w (u.apply record) filters
    if p.kept then p.token :: tokensFrom p.workspace p.token p.filter rest
    else tokensFrom p.workspace p.token p.filter rest

/-- The tokens of the updates are the token of the next step, where it has one, and those of the
updates behind it. -/
theorem tokensFrom_eq_advanceFrom (w : Workspace) (record : Token) (filters : List Running)
    (updates : List Update) :
    tokensFrom w record filters updates =
      match Stream.advanceFrom w record filters updates with
      | (true, s, w') => s.record :: tokensFrom w' s.record s.filters s.pending
      | (false, _, _) => [] := by
  induction updates generalizing w record filters with
  | nil => rfl
  | cons u rest ih =>
    rw [tokensFrom, Stream.advanceFrom]
    by_cases hkept : (passThrough w (u.apply record) filters).kept = true
    · rw [if_pos hkept, if_pos hkept]
    · rw [if_neg hkept, if_neg hkept]
      exact ih _ _ _

namespace Stream

/-- The tokens of the stream. -/
def tokens (w : Workspace) (s : Stream) : List Token :=
  tokensFrom w s.record s.filters s.pending

/-- A stream that does not advance has no tokens. -/
theorem tokens_of_advance_eq_false {w : Workspace} {s : Stream} (h : (s.advance w).1 = false) :
    s.tokens w = [] := by
  unfold advance at h
  rw [tokens, tokensFrom_eq_advanceFrom]
  split
  · next heq => rw [heq] at h; cases h
  · rfl

/-- The tokens of a stream that advances are the one it moves to and those behind it. -/
theorem tokens_of_advance_eq_true {w : Workspace} {s : Stream} (h : (s.advance w).1 = true) :
    s.tokens w =
      (s.advance w).2.1.record :: (s.advance w).2.1.tokens (s.advance w).2.2 := by
  unfold advance at h ⊢
  rw [tokens, tokensFrom_eq_advanceFrom]
  split
  · next heq => rw [heq]; rfl
  · next heq => rw [heq] at h; cases h

/-- Nothing is taken of a stream that does not advance. -/
theorem take_of_advance_eq_false {w : Workspace} {s : Stream} (n : Nat)
    (h : (s.advance w).1 = false) : s.take (n + 1) w = ([], (s.advance w).2) := by
  rw [take]
  split
  · next heq => rw [heq] at h; cases h
  · next heq => rw [heq]

/-- The first token taken is the one that the stream moves to. -/
theorem take_of_advance_eq_true {w : Workspace} {s : Stream} (n : Nat)
    (h : (s.advance w).1 = true) :
    s.take (n + 1) w =
      ((s.advance w).2.1.record :: ((s.advance w).2.1.take n (s.advance w).2.2).1,
        ((s.advance w).2.1.take n (s.advance w).2.2).2) := by
  rw [take]
  split
  · next heq => rw [heq]
  · next heq => rw [heq] at h; cases h

/-- Enough steps take all tokens, and leave a stream that has ended. -/
theorem take_eq (n : Nat) (w : Workspace) (s : Stream) (h : s.pending.length ≤ n) :
    (s.take n w).1 = s.tokens w ∧ (s.take n w).2.1.pending = [] := by
  induction n generalizing w s with
  | zero =>
    have hnil : s.pending = [] := List.eq_nil_of_length_eq_zero (by omega)
    rw [take, tokens, hnil]
    exact ⟨rfl, rfl⟩
  | succ n ih =>
    cases hs : (s.advance w).1 with
    | false =>
      rw [take_of_advance_eq_false n hs, tokens_of_advance_eq_false hs]
      exact ⟨rfl, pending_of_advance_eq_false hs⟩
    | true =>
      have hlt := pending_length_lt_of_advance hs
      obtain ⟨hrest, hended⟩ := ih (s.advance w).2.2 (s.advance w).2.1 (by omega)
      rw [take_of_advance_eq_true n hs, tokens_of_advance_eq_true hs, hrest]
      exact ⟨rfl, hended⟩

/-- Draining a stream takes all its tokens, -/
theorem drain_fst (w : Workspace) (s : Stream) : (s.drain w).1 = s.tokens w :=
  (take_eq _ w s (Nat.le_refl _)).1

/-- and leaves a stream that has ended. -/
theorem drain_ended (w w' : Workspace) (s : Stream) : ((s.drain w).2.1.advance w').1 = false := by
  unfold drain
  rw [advance_of_pending_eq_nil (take_eq _ w s (Nat.le_refl _)).2]

end Stream

/-- A tokenizer starts without filters and leaves it to the options whether tokens are to be
dropped. -/
theorem Tokenizer.start_tokenize (t : Tokenizer) (o : Options) (text : String) :
    (t.tokenize o text).filters = [] ∧
      ((t.tokenize o text).pending = [] ∨
        (t.tokenize o text).record.removeStopped = o.removeStopped ∧
          ∃ pieces, (t.tokenize o text).pending = Piece.updatesFrom o 0 pieces) := by
  unfold Tokenizer.tokenize
  generalize (if o.tokenize then t else whole) = t'
  dsimp only
  split
  · exact ⟨rfl, .inl rfl⟩
  · exact ⟨rfl, .inr ⟨rfl, _, rfl⟩⟩

namespace Pipeline

/-- The stream of a text is the stream of its tokenizer with the active filters behind it. -/
theorem streamOfText_eq (p : Pipeline) (o : Options) (text : String) :
    p.streamOfText o text =
      { p.tokenizer.tokenize o text with
        filters := (p.tokenizer.tokenize o text).filters ++
          (p.activeFilters o).map (Running.ofFilter o.keepForms) } := by
  have hfold : ∀ (fs : List Filter) (s : Stream),
      fs.foldl (fun s f => s.through o.keepForms f) s =
        { s with filters := s.filters ++ fs.map (Running.ofFilter o.keepForms) } := by
    intro fs
    induction fs with
    | nil => simp
    | cons f fs ih =>
      intro s
      rw [List.foldl_cons, ih]
      simp [Stream.through]
  exact hfold _ _

end Pipeline

end TextAnalysis
