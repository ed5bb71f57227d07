import TextAnalysis.Proofs.Annotating
import TextAnalysis.Proofs.Stopping

/-!
# Filters that rewrite texts

Filters such as those for lower case or white space rewrite the text of a token and leave everything
else as it was: the other fields, the workspace, and themselves. What becomes of a token depends on
its text alone (`Worker.Rewrites`), and a stack of such filters does one rewriting after the other.

Main statement: `Pipeline.drain_of_rewrites`, the tokens of a pipeline with such filters only, in terms
of the pieces of its tokenizer.
-/

set_option autoImplicit false

namespace TextAnalysis

/-- The token with its text rewritten. -/
def Token.rewrite (f : List Char → List Char) (t : Token) : Token :=
  { t with text := String.ofList (f t.text.toList) }

/-- Rewriting nothing leaves a token as it is. -/
theorem Token.rewrite_id (t : Token) : t.rewrite id = t := by
  rw [rewrite, id, String.ofList_toList]

/-- Two rewritings are one. -/
theorem Token.rewrite_rewrite (f g : List Char → List Char) (t : Token) :
    (t.rewrite f).rewrite g = t.rewrite (g ∘ f) := by
  simp only [rewrite, String.toList_ofList, Function.comp]

namespace Worker

/-- All that the filter does is to rewrite the text of every token. -/
def Rewrites (k : Worker) (f : List Char → List Char) : Prop :=
  ∀ (w : Workspace) (t : Token), k.step w t = ⟨w, k, t.rewrite f, true⟩

/-- The lower case filter rewrites texts, -/
theorem rewrites_lowercase : lowercase.Rewrites Unicode.lowercase := fun _ _ => rfl

/-- and so does the one that strips them. -/
theorem rewrites_strip : strip.Rewrites Text.trim := fun _ _ => rfl

end Worker

/-- One rewriting after the other. -/
def rewriteAll (fs : List (List Char → List Char)) : List Char → List Char :=
  fs.foldr (fun f g => g ∘ f) id

variable {ks : List Worker} {fs : List (List Char → List Char)}

/-- A token passes a stack of rewriting filters with its text rewritten by each of them. -/
theorem passThrough_of_rewrites (h : List.Forall₂ Worker.Rewrites ks fs) (w : Workspace)
    (t : Token) :
    passThrough w t (ks.map .working) =
      ⟨w, ks.map .working, t.rewrite (rewriteAll fs), true⟩ := by
  induction h generalizing t with
  | nil =>
    rw [List.map_nil, passThrough, rewriteAll, List.foldr_nil, Token.rewrite_id]
  | cons hk _ ih =>
    rw [List.map_cons, passThrough_cons_of_kept (hk w t), ih, Token.rewrite_rewrite]
    rfl

/-- What is left of a rewritten token once the next piece has been written into the record. -/
theorem Piece.apply_update_rewrite (o : Options) (i j : Nat) (p q : Piece)
    (f : List Char → List Char) :
    (p.update o i).apply ((q.token o j).rewrite f) = p.token o i := by
  rw [← apply_update_token o i j p q, apply_update, apply_update]
  rfl

/-- Rewriting filters make one token of every piece. -/
theorem tokensFrom_of_rewrites (h : List.Forall₂ Worker.Rewrites ks fs) {o : Options}
    {record : Token} (hrecord : ∀ (i : Nat) (p : Piece), (p.update o i).apply record = p.token o i)
    (w : Workspace) (index : Nat) (pieces : List Piece) :
    tokensFrom w record (ks.map .working) (Piece.updatesFrom o index pieces) =
      pieces.mapIdx fun k p => (p.token o (index + k)).rewrite (rewriteAll fs) := by
  induction pieces generalizing record index with
  | nil => rfl
  | cons p rest ih =>
    have hnext (i : Nat) (q : Piece) :
        (q.update o i).apply ((p.token o index).rewrite (rewriteAll fs)) = q.token o i :=
      Piece.apply_update_rewrite o i index q p (rewriteAll fs)
    rw [Piece.updatesFrom, tokensFrom, hrecord, passThrough_of_rewrites h]
    dsimp only
    rw [if_pos rfl, ih hnext, List.mapIdx_cons]
    simp only [Nat.add_zero, Nat.add_assoc, Nat.add_comm 1]

/-- The tokens of a pipeline whose filters rewrite texts are those of its tokenizer, rewritten. -/
theorem Pipeline.drain_of_rewrites {p : Pipeline} {o : Options}
    (h : List.Forall₂ Worker.Rewrites (p.workers o) fs) (text : String) (w : Workspace) :
    ((p.streamOfText o text).drain w).1 =
      (((p.tokenizer.tokenize o text).drain w).1).map (Token.rewrite (rewriteAll fs)) := by
  rw [drain_streamOfText, tokensFrom_of_rewrites h (fun _ _ => rfl), Tokenizer.drain_tokenize]
  refine List.ext_getElem (by simp only [List.length_mapIdx, List.length_map]) fun k _ _ => ?_
  rw [List.getElem_map, List.getElem_mapIdx, List.getElem_mapIdx, Nat.zero_add]

end TextAnalysis
