import TextAnalysis.Proofs.Cutting

/-!
# How pieces are annotated

A tokenizer writes its pieces into the record one after the other, and every token carries what the
options ask for: the place of the piece among the pieces, and where the piece stands in the text.
Texts that have been cut already go through the same steps, but along sums that are carried from
text to text. Both sums stop at the same ceiling, so the annotations agree; the texts before
filtering do not, since a stream of texts that have been cut already never keeps them.

Main statements: `Tokenizer.drain_tokenize`, the tokens of a tokenizer, and
`pretokenized_tokens`, the tokens of texts that have been cut already.
-/

set_option autoImplicit false

namespace TextAnalysis

namespace Piece

/-- The token that the options of an analysis make of the piece at place `index`. -/
def token (o : Options) (index : Nat) (p : Piece) : Token :=
  (p.update o index).apply (.ofOptions o)

/-- A piece leaves nothing of the token before it. -/
theorem apply_update_token (o : Options) (i j : Nat) (p q : Piece) :
    (p.update o i).apply (q.token o j) = p.token o i := by
  simp only [token, apply_update, Token.ofOptions]
  cases o.positions <;> cases o.offsets <;> rfl

/-- Pieces become the tokens that the options make of them, whatever piece has been written into the
record before. -/
theorem tokensFrom_updatesFrom {o : Options} {record : Token}
    (h : ∀ (i : Nat) (p : Piece), (p.update o i).apply record = p.token o i) (w : Workspace)
    (index : Nat) (pieces : List Piece) :
    tokensFrom w record [] (updatesFrom o index pieces) =
      pieces.mapIdx fun k p => p.token o (index + k) := by
  induction pieces generalizing record index with
  | nil => rfl
  | cons p rest ih =>
    have hrest := ih (fun i q => apply_update_token o i index q p) (index + 1)
    simp only [updatesFrom, tokensFrom, passThrough, if_true, h, hrest, List.mapIdx_cons,
      Nat.add_zero]
    congr 2
    funext k q
    rw [Nat.add_assoc, Nat.add_comm 1 k]

end Piece

namespace Stream

/-- The stream of the pieces of a text. -/
def ofPieces (o : Options) (pieces : List Piece) : Stream :=
  { record := .ofOptions o, pending := Piece.updatesFrom o 0 pieces }

/-- Pieces are drained as their tokens, numbered by their places. -/
theorem drain_ofPieces (o : Options) (pieces : List Piece) (w : Workspace) :
    ((ofPieces o pieces).drain w).1 = pieces.mapIdx (Piece.token o) := by
  have hfirst (i : Nat) (p : Piece) : (p.update o i).apply (.ofOptions o) = p.token o i := rfl
  have htokens := Piece.tokensFrom_updatesFrom hfirst w 0 pieces
  simpa only [Nat.zero_add] using (drain_fst w (ofPieces o pieces)).trans htokens

end Stream

/-- The tokens of a tokenizer are what the options make of its pieces. -/
theorem Tokenizer.drain_tokenize (t : Tokenizer) (o : Options) (text : String) (w : Workspace) :
    ((t.tokenize o text).drain w).1 = (t.cut o.tokenize text).mapIdx (Piece.token o) := by
  rw [← Stream.drain_ofPieces o _ w, Stream.drain_fst, Stream.drain_fst, Stream.tokens,
    Stream.tokens, (t.start_tokenize o text).1, t.pending_tokenize]
  rcases t.record_tokenize o text with hnil | hrecord
  · rw [hnil]
    rfl
  · rw [hrecord]
    rfl

/-! ## Texts that have been cut already -/

namespace Piece

/-- Texts that follow one another directly, from `offset` on, as pieces. -/
def adjoining (offset : Nat) : List String → List Piece
  | [] => []
  | text :: rest =>
    ⟨text.toList, offset, offset + text.utf8ByteSize⟩ :: adjoining (offset + text.utf8ByteSize) rest

/-- Texts as pieces of their concatenation: each ends where the texts up to it end together. -/
def ofTexts (texts : List String) : List Piece :=
  texts.mapIdx fun k text =>
    ⟨text.toList, (String.join (texts.take k)).utf8ByteSize,
      (String.join (texts.take (k + 1))).utf8ByteSize⟩

/-- The size of texts one behind the other is the sum of their sizes. -/
theorem utf8ByteSize_join_cons (text : String) (rest : List String) :
    (String.join (text :: rest)).utf8ByteSize =
      text.utf8ByteSize + (String.join rest).utf8ByteSize := by
  rw [String.join_cons, String.utf8ByteSize_append]

/-- Where texts that follow one another stand depends on what stands before them. -/
theorem adjoining_eq (offset : Nat) (texts : List String) :
    adjoining offset texts =
      texts.mapIdx fun k text =>
        ⟨text.toList, offset + (String.join (texts.take k)).utf8ByteSize,
          offset + (String.join (texts.take (k + 1))).utf8ByteSize⟩ := by
  induction texts generalizing offset with
  | nil => rfl
  | cons text rest ih =>
    have hnil : (String.join []).utf8ByteSize = 0 := rfl
    simp only [adjoining, ih, List.mapIdx_cons, List.take_succ_cons, List.take_zero,
      utf8ByteSize_join_cons, hnil, Nat.add_zero, Nat.add_assoc]

/-- Pieces that adjoin from the start of a text are those of its parts. -/
theorem adjoining_zero (texts : List String) : adjoining 0 texts = ofTexts texts := by
  simp only [adjoining_eq, ofTexts, Nat.zero_add]

/-- A text that has been cut already is annotated like the piece at its place, except that its text
before filtering is not kept. The sums carried from text to text stop where the sums of the
annotations do, since going on behind the ceiling stays there. -/
theorem updatesOfTexts_eq (o : Options) (index offset : Nat) (texts : List String) :
    Stream.updatesOfTexts o (Saturating.add o.firstPosition index)
        (Saturating.add o.firstOffset offset) texts =
      updatesFrom { o with keepUnfiltered := false } index (adjoining offset texts) := by
  induction texts generalizing index offset with
  | nil => rfl
  | cons text rest ih =>
    simp only [Stream.updatesOfTexts, Saturating.add_add, ih, adjoining, updatesFrom, update,
      String.ofList_toList]

end Piece

/-- A stream of texts that have been cut already is the stream of the pieces of their concatenation,
under options that do not keep the texts before filtering. -/
theorem Stream.ofTexts_eq {o : Options} (hposition : o.firstPosition ≤ Saturating.ceiling)
    (hoffset : o.firstOffset ≤ Saturating.ceiling) (texts : List String) :
    Stream.ofTexts o texts =
      Stream.ofPieces { o with keepUnfiltered := false } (Piece.ofTexts texts) := by
  have hpending := Piece.updatesOfTexts_eq o 0 0 texts
  rw [Saturating.add_zero _ hposition, Saturating.add_zero _ hoffset, Piece.adjoining_zero] at hpending
  rw [Stream.ofTexts, hpending]
  rfl

/-- Options that differ in whether texts before filtering are kept make the same tokens of no
pieces only. -/
theorem Piece.mapIdx_token_keepUnfiltered (o : Options) (pieces : List Piece) :
    pieces.mapIdx (token { o with keepUnfiltered := false }) = pieces.mapIdx (token o) ↔
      o.keepUnfiltered = false ∨ pieces = [] := by
  cases pieces with
  | nil => simp
  | cons p rest =>
    cases hkeep : o.keepUnfiltered with
    | false =>
      have hsame : { o with keepUnfiltered := false } = o := by rw [← hkeep]
      simp only [hsame, true_or]
    | true =>
      -- the first token alone tells the options apart
      simp only [List.mapIdx_cons, List.cons.injEq, token, apply_update, hkeep]
      simp

/-- Texts that have been cut already are annotated like the pieces of their concatenation, up to the
ceiling, except that their texts before filtering are not kept: their tokens are those of a tokenizer
that finds these pieces under options that do not keep these texts, and under the given options
exactly where these do not keep them either, or there is no text. -/
theorem pretokenized_tokens (o : Options) (texts : List String) (w : Workspace)
    (hposition : o.firstPosition ≤ Saturating.ceiling)
    (hoffset : o.firstOffset ≤ Saturating.ceiling) :
    let tokens := ((Stream.ofTexts o texts).drain w).1
    let emitted (o : Options) := (Piece.ofTexts texts).mapIdx (Piece.token o)
    tokens = emitted { o with keepUnfiltered := false } ∧
      (tokens = emitted o ↔ o.keepUnfiltered = false ∨ texts = []) := by
  intro tokens emitted
  have htokens : tokens = emitted { o with keepUnfiltered := false } := by
    show ((Stream.ofTexts o texts).drain w).1 = _
    rw [Stream.ofTexts_eq hposition hoffset, Stream.drain_ofPieces]
  have hnil : Piece.ofTexts texts = [] ↔ texts = [] := List.mapIdx_eq_nil_iff
  refine ⟨htokens, ?_⟩
  rw [htokens, ← hnil]
  exact Piece.mapIdx_token_keepUnfiltered o (Piece.ofTexts texts)

/-- Three texts, of which the second is empty and the third passes the ceiling, are annotated like
the pieces of their concatenation. -/
theorem pretokenized_tokens_at_ceiling :
    let o : Options :=
      { positions := true, offsets := true, firstPosition := Saturating.ceiling - 1,
        firstOffset := Saturating.ceiling - 3 }
    let texts := ["ab", "", "cd"]
    let tokens := ((Stream.ofTexts o texts).drain {}).1
    (o.firstPosition ≤ Saturating.ceiling ∧ o.firstOffset ≤ Saturating.ceiling) ∧
      tokens = (Piece.ofTexts texts).mapIdx (Piece.token o) ∧
      tokens.map Token.endOffset =
        [some (Saturating.ceiling - 1), some (Saturating.ceiling - 1), some Saturating.ceiling] := by
  intro o texts tokens
  have hposition : o.firstPosition ≤ Saturating.ceiling := by decide
  have hoffset : o.firstOffset ≤ Saturating.ceiling := by decide
  have htokens := (pretokenized_tokens o texts {} hposition hoffset).2.mpr (.inl rfl)
  exact ⟨⟨hposition, hoffset⟩, htokens, by decide⟩

/-- A text that has been cut already loses the text before filtering that the options ask to keep,
which the piece of a tokenizer keeps. -/
theorem pretokenized_hello_loses_unfiltered :
    let o : Options := { keepUnfiltered := true }
    let tokens := ((Stream.ofTexts o ["Hello"]).drain {}).1
    let emitted := (Piece.ofTexts ["Hello"]).mapIdx (Piece.token o)
    tokens.map Token.unfiltered = [none] ∧ emitted.map Token.unfiltered = [some "Hello"] ∧
      tokens ≠ emitted := by
  intro o tokens emitted
  have htokens : tokens.map Token.unfiltered = [none] := by decide
  have hemitted : emitted.map Token.unfiltered = [some "Hello"] := by decide
  refine ⟨htokens, hemitted, fun heq => ?_⟩
  rw [heq, hemitted] at htokens
  cases htokens

end TextAnalysis
