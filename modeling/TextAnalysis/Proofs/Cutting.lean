import TextAnalysis.Proofs.Draining

/-!
# What a tokenizer writes

A tokenizer cuts a text into pieces, which depend on one option only: whether the text is to be cut
at all. The other options decide how the pieces are annotated. So the updates of two analyses of one
text, which differ in other options, are written for the same pieces.
-/

set_option autoImplicit false

namespace TextAnalysis

/-- A piece changes the text of the record and undoes what filters did, and it changes the
annotations that are asked for. -/
theorem Piece.apply_update (o : Options) (index : Nat) (p : Piece) (t : Token) :
    (p.update o index).apply t =
      { t with
        text := String.ofList p.text
        unfiltered := if o.keepUnfiltered then some (String.ofList p.text) else none
        boost := Binary32.one
        stopped := false
        position :=
          if o.positions then some (Saturating.add o.firstPosition index) else t.position
        startOffset :=
          if o.offsets then some (Saturating.add o.firstOffset p.first) else t.startOffset
        endOffset :=
          if o.offsets then some (Saturating.add o.firstOffset p.last) else t.endOffset } := by
  cases hp : o.positions <;> cases ho : o.offsets <;>
    simp [Piece.update, Update.apply, Token.load, hp, ho]

/-- Every update of pieces is that of a piece. -/
theorem Piece.exists_of_mem_updatesFrom {o : Options} {index : Nat} {pieces : List Piece}
    {u : Update} (hu : u ∈ updatesFrom o index pieces) :
    ∃ i, ∃ p : Piece, u = p.update o i := by
  induction pieces generalizing index with
  | nil => simp [updatesFrom] at hu
  | cons p rest ih =>
    rcases List.mem_cons.mp hu with rfl | hu
    · exact ⟨index, p, rfl⟩
    · exact ih hu

/-- The updates for pieces depend on how the options annotate one piece. -/
theorem Piece.updatesFrom_congr {o o' : Options} (h : Piece.update o = Piece.update o')
    (index : Nat) (pieces : List Piece) : updatesFrom o index pieces = updatesFrom o' index pieces := by
  induction pieces generalizing index with
  | nil => rfl
  | cons p rest ih => rw [updatesFrom, updatesFrom, h, ih]

namespace Tokenizer

/-- The pieces that a tokenizer makes of a text, or the text as one piece where it is not to be
cut. -/
def cut (t : Tokenizer) (cutting : Bool) (text : String) : List Piece :=
  let t := if cutting then t else whole
  if text.isEmpty && t ≠ whole then [] else t.pieces text.toList

/-- A tokenizer that finds no piece in an empty text makes its pieces of every text. -/
theorem cut_true {t : Tokenizer} (h : t.pieces [] = []) (text : String) :
    t.cut true text = t.pieces text.toList := by
  rw [cut, if_pos rfl]
  split
  · next hempty =>
    rw [Bool.and_eq_true, String.isEmpty_iff] at hempty
    rw [hempty.1]
    exact h.symm
  · rfl

/-- A tokenizer has the updates of its pieces pending. -/
theorem pending_tokenize (t : Tokenizer) (o : Options) (text : String) :
    (t.tokenize o text).pending = Piece.updatesFrom o 0 (t.cut o.tokenize text) := by
  unfold tokenize cut
  generalize (if o.tokenize then t else whole) = t'
  dsimp only
  split <;> rfl

/-- A tokenizer starts with the record of the options, unless there is nothing to cut. -/
theorem record_tokenize (t : Tokenizer) (o : Options) (text : String) :
    t.cut o.tokenize text = [] ∨ (t.tokenize o text).record = .ofOptions o := by
  unfold tokenize cut
  generalize (if o.tokenize then t else whole) = t'
  dsimp only
  split
  · exact .inl rfl
  · exact .inr rfl

/-- Options that cut alike, start alike and annotate alike give the same stream. -/
theorem tokenize_congr {o o' : Options} (hcut : o.tokenize = o'.tokenize)
    (hrecord : Token.ofOptions o = Token.ofOptions o') (hupdate : Piece.update o = Piece.update o')
    (t : Tokenizer) (text : String) : t.tokenize o text = t.tokenize o' text := by
  unfold tokenize
  simp only [hcut, hrecord, Piece.updatesFrom_congr hupdate]

end Tokenizer

end TextAnalysis
