import Mathlib.Data.List.Forall2
import Mathlib.Data.String.Basic
import TextAnalysis.Proofs.Annotating

/-!
# Where pieces stand in a text

However a tokenizer finds its pieces, they stand on spans of the text, which begin and end between
characters, and from one piece to the next neither end of the span goes back. Every tokenizer walks
through the text from its start; what a walk has passed and what is still in front of it make up the
text, and this is what its offsets are read from.

Main statement: `tokens_stand_on_spans`, the tokens of a tokenizer in terms of such spans.
-/

set_option autoImplicit false

namespace TextAnalysis

namespace Text

/-- The bytes of two texts one behind the other add up. -/
@[simp]
theorem byteLength_append (a b : List Char) : byteLength (a ++ b) = byteLength a + byteLength b := by
  induction a with
  | nil => simp [byteLength]
  | cons c a ih => simp only [List.cons_append, byteLength, ih, Nat.add_assoc]

/-- A character takes the bytes of its encoding. -/
@[simp]
theorem byteLength_singleton (c : Char) : byteLength [c] = c.utf8Size := rfl

/-- The order of characters does not matter for their bytes. -/
theorem byteLength_reverse (a : List Char) : byteLength a.reverse = byteLength a := by
  induction a with
  | nil => rfl
  | cons c a ih => simp [byteLength, ih, Nat.add_comm]

/-- A text that is not empty has bytes. -/
theorem byteLength_pos {cs : List Char} (h : cs ≠ []) : 0 < byteLength cs := by
  obtain ⟨c, rest, rfl⟩ := List.exists_cons_of_ne_nil h
  have hc := c.utf8Size_pos
  simp only [byteLength]
  omega

/-- The number of bytes is that of the encoded text, -/
theorem byteLength_eq_utf8ByteSize (cs : List Char) :
    byteLength cs = (String.ofList cs).utf8ByteSize := by
  rw [String.utf8ByteSize_ofList]
  induction cs with
  | nil => rfl
  | cons c cs ih => simp [byteLength, ih, Nat.add_comm]

/-- and that of a string is its size. -/
theorem byteLength_toList (text : String) : byteLength text.toList = text.utf8ByteSize := by
  rw [byteLength_eq_utf8ByteSize, String.ofList_toList]

/-- A span of a text: what stands before it, inside it and after it. -/
structure Span (text : List Char) where
  before : List Char
  inside : List Char
  after : List Char
  parts : before ++ inside ++ after = text

namespace Span

variable {text : List Char} (s : Span text)

/-- Where the span begins, in bytes. -/
def first : Nat := byteLength s.before

/-- Where the span ends, in bytes. -/
def last : Nat := byteLength (s.before ++ s.inside)

/-- The bytes inside a span lie between its ends. -/
theorem last_eq : s.last = s.first + byteLength s.inside := byteLength_append s.before s.inside

/-- A span ends no earlier than it begins, -/
theorem first_le_last : s.first ≤ s.last := by
  have hlast := s.last_eq
  omega

/-- and no later than its text. -/
theorem last_le : s.last ≤ byteLength text := by
  have htext : byteLength text = s.last + byteLength s.after := by
    rw [last, ← byteLength_append, s.parts]
  omega

/-- A byte offset behind the first characters of a text stands between two characters. -/
theorem isValid_byteLength {a b : List Char} {text : String} (h : a ++ b = text.toList) :
    (⟨byteLength a⟩ : String.Pos.Raw).IsValid text := by
  refine String.Pos.Raw.isValid_iff_exists_append.mpr ⟨String.ofList a, String.ofList b, ?_, ?_⟩
  · rw [← String.ofList_append, h, String.ofList_toList]
  · rw [byteLength_eq_utf8ByteSize]
    rfl

/-- A span begins between two characters, -/
theorem isValid_first {text : String} (s : Span text.toList) :
    (⟨s.first⟩ : String.Pos.Raw).IsValid text :=
  isValid_byteLength (b := s.inside ++ s.after) (by rw [← List.append_assoc, s.parts])

/-- and ends between two. -/
theorem isValid_last {text : String} (s : Span text.toList) :
    (⟨s.last⟩ : String.Pos.Raw).IsValid text :=
  isValid_byteLength s.parts

/-- Neither end of the second span stands in front of that of the first. -/
def Precedes (s s' : Span text) : Prop := s.first ≤ s'.first ∧ s.last ≤ s'.last

end Span

end Text

open Text (Span byteLength)

namespace Piece

/-- The piece on a span, whose characters are rewritten by `write`. -/
def ofSpan (write : List Char → List Char) {text : List Char} (s : Span text) : Piece :=
  ⟨write s.inside, s.first, s.last⟩

/-- Pieces on spans of a text that begin at `first` or later, end at `last` or later, and never go
back. -/
inductive Laid (write : List Char → List Char) (text : List Char) : Nat → Nat → List Piece → Prop
  | nil (first last : Nat) : Laid write text first last []
  | cons {first last : Nat} (s : Span text) {rest : List Piece} (hfirst : first ≤ s.first)
    (hlast : last ≤ s.last) (hrest : Laid write text s.first s.last rest) :
    Laid write text first last (ofSpan write s :: rest)

namespace Laid

variable {write : List Char → List Char} {text : List Char} {first last : Nat} {pieces : List Piece}

/-- Pieces that may begin and end at some place may do so at an earlier one. -/
theorem mono {first' last' : Nat} (h : Laid write text first last pieces) (hfirst : first' ≤ first)
    (hlast : last' ≤ last) : Laid write text first' last' pieces := by
  cases h with
  | nil => exact .nil first' last'
  | cons s hs ht hrest => exact .cons s (hfirst.trans hs) (hlast.trans ht) hrest

/-- The spans on which laid pieces stand. -/
theorem exists_spans (h : Laid write text first last pieces) :
    ∃ spans : List (Span text),
      pieces = spans.map (ofSpan write) ∧ spans.Pairwise Span.Precedes ∧
        ∀ s ∈ spans, first ≤ s.first ∧ last ≤ s.last := by
  induction h with
  | nil => exact ⟨[], rfl, .nil, by simp⟩
  | cons s hfirst hlast _ ih =>
    obtain ⟨spans, hspans, hordered, hbounds⟩ := ih
    refine ⟨s :: spans, by rw [hspans, List.map_cons], .cons hbounds hordered, ?_⟩
    intro s' hs'
    rcases List.mem_cons.mp hs' with rfl | hs'
    · exact ⟨hfirst, hlast⟩
    · have hbound := hbounds s' hs'
      exact ⟨hfirst.trans hbound.1, hlast.trans hbound.2⟩

/-- One more piece in front, given by the parts of the text around it. -/
theorem cons_of_parts {before inside after : List Char} (hparts : before ++ inside ++ after = text)
    {p : Piece} (hp : p = ⟨write inside, byteLength before, byteLength (before ++ inside)⟩)
    (hfirst : first ≤ p.first) (hlast : last ≤ p.last)
    (h : Laid write text p.first p.last pieces) : Laid write text first last (p :: pieces) := by
  subst hp
  exact .cons ⟨before, inside, after, hparts⟩ hfirst hlast h

end Laid

end Piece

/-! ## Cuts -/

namespace Pattern.Cuts

/-- The text of cuts starts with what the first cut skips, and with what it finds. -/
theorem text_cons (c : Cut) (cuts : List Cut) (rest : List Char) :
    (⟨c :: cuts, rest⟩ : Cuts).text = c.skipped ++ (c.found ++ (⟨cuts, rest⟩ : Cuts).text) := by
  simp only [text, List.flatMap_cons, List.append_assoc]

/-- A cut in front of others puts its parts in front of their text. -/
theorem text_push (skipped found : List Char) (c : Cuts) :
    (push skipped found c).text = skipped ++ (found ++ c.text) :=
  text_cons ⟨skipped, found⟩ c.cuts c.rest

/-- Cuts leave nothing of the text out: what has been skipped and what the current match does not
take come back. Behind a match, and inside it, nothing has been skipped yet. -/
theorem text_collect (e : Expr) {skipped : List Char} {ended : Bool} {inside : Nat}
    (h : ended = true ∨ 0 < inside → skipped = []) (before : Option Char) (text : List Char) :
    (collect e before skipped ended inside text).text = skipped.reverse ++ text.drop inside := by
  -- One character at a time: it is inside the current match, or a match begins at it, or it is skipped.
  induction text generalizing before skipped ended inside with
  | nil =>
    unfold collect
    split <;> simp [push, Cuts.text]
  | cons c rest ih =>
    cases inside with
    | succ more =>
      have hnil := h (.inr more.succ_pos)
      rw [collect, ih fun _ => hnil, List.drop_succ_cons]
    | zero =>
      simp only [collect]
      split
      · rw [text_push, ih fun _ => rfl]
        simp
      · split
        · next hended => rw [h (.inl hended), ih (by simp)]; simp
        · rw [text_push, ih (by simp)]
          simp
      · rw [ih (by simp)]
        simp

/-- Cutting a text loses none of it. -/
theorem text_ofText (e : Expr) (text : List Char) : (ofText e text).text = text :=
  text_collect e (by simp) none text

end Pattern.Cuts

namespace Piece

open Pattern (Cut Cuts)

variable {text : List Char}

/-- The matches lie on spans of the text, in order. -/
theorem laid_matchesFrom {before rest : List Char} {cuts : List Cut}
    (h : before ++ (⟨cuts, rest⟩ : Cuts).text = text) :
    Laid id text (byteLength before) (byteLength before) (matchesFrom (byteLength before) cuts) := by
  induction cuts generalizing before with
  | nil => exact .nil _ _
  | cons c cuts ih =>
    rw [Cuts.text_cons] at h
    have hrest := @ih (before ++ c.skipped ++ c.found) (by simpa using h)
    have hparts : before ++ c.skipped ++ c.found ++ (⟨cuts, rest⟩ : Cuts).text = text := by
      simpa using h
    simp only [Text.byteLength_append] at hrest
    refine .cons_of_parts hparts (by simp [Nat.add_assoc]) ?_ ?_ (hrest.mono ?_ ?_) <;>
      dsimp only <;> omega

/-- A gap lies on a span, if there is one. -/
theorem laid_gapAt {before gap after : List Char} {pieces : List Piece}
    (h : before ++ gap ++ after = text)
    (hrest : Laid id text (byteLength (before ++ gap)) (byteLength (before ++ gap)) pieces) :
    Laid id text (byteLength before) (byteLength before)
      (gapAt (byteLength before) gap ++ pieces) := by
  simp only [Text.byteLength_append] at hrest
  unfold gapAt
  split
  · exact hrest.mono (by omega) (by omega)
  · refine .cons_of_parts h (by simp) ?_ ?_ (hrest.mono ?_ ?_) <;> dsimp only <;> omega

/-- So do all gaps among the cuts. -/
theorem laid_gapsFrom {before rest : List Char} {cuts : List Cut}
    (h : before ++ (⟨cuts, rest⟩ : Cuts).text = text) :
    Laid id text (byteLength before) (byteLength before)
      (gapsFrom (byteLength before) rest cuts) := by
  induction cuts generalizing before with
  | nil =>
    have hparts : before ++ rest ++ [] = text := by simpa [Cuts.text] using h
    have hlaid := laid_gapAt hparts (.nil _ _)
    rwa [List.append_nil] at hlaid
  | cons c cuts ih =>
    rw [Cuts.text_cons, ← List.append_assoc] at h
    have hrest := @ih (before ++ c.skipped ++ c.found) (by simpa using h)
    have hbehind : Laid id text (byteLength (before ++ c.skipped)) (byteLength (before ++ c.skipped))
        (gapsFrom (byteLength (before ++ c.skipped ++ c.found)) rest cuts) := by
      refine hrest.mono ?_ ?_ <;> simp only [Text.byteLength_append] <;> omega
    simpa only [gapsFrom, Text.byteLength_append] using laid_gapAt h hbehind

/-- The text up to the end of a match always begins where the whole text does. -/
theorem laid_segmentEnds {before rest : List Char} {cuts : List Cut}
    (h : before.reverse ++ (⟨cuts, rest⟩ : Cuts).text = text) :
    Laid id text 0 (byteLength before) (segmentEnds before (byteLength before) cuts) := by
  induction cuts generalizing before with
  | nil => exact .nil _ _
  | cons c cuts ih =>
    rw [Cuts.text_cons] at h
    have hrest := @ih (c.found.reverse ++ (c.skipped.reverse ++ before)) (by simpa using h)
    have hparts : [] ++ (before.reverse ++ c.skipped ++ c.found) ++ (⟨cuts, rest⟩ : Cuts).text =
        text := by
      simpa using h
    have hlength : byteLength (c.found.reverse ++ (c.skipped.reverse ++ before)) =
        byteLength before + byteLength c.skipped + byteLength c.found := by
      simp only [Text.byteLength_append, Text.byteLength_reverse]
      omega
    rw [hlength] at hrest
    refine .cons_of_parts hparts ?_ (Nat.le_refl 0) ?_ hrest
    · simp [byteLength, Text.byteLength_reverse, Nat.add_assoc]
    · dsimp only
      omega

/-- While a map reads a text, the run that it is reading stands directly in front of what is still to
be read. -/
theorem laid_runsFrom (m : CharMap) {before inside rest : List Char}
    (h : before ++ inside ++ rest = text) :
    Laid m.applyChars text (byteLength before) (byteLength (before ++ inside))
        (runsFrom m (byteLength (before ++ inside))
          (some (byteLength before, (m.applyChars inside).reverse)) rest) ∧
      Laid m.applyChars text (byteLength (before ++ inside)) (byteLength (before ++ inside))
        (runsFrom m (byteLength (before ++ inside)) none rest) := by
  -- Reading inside a run and between runs go together, since each character may end one and begin the
  -- other.
  induction rest generalizing before inside with
  | nil =>
    refine ⟨.cons_of_parts h ?_ ?_ ?_ (.nil _ _), .nil _ _⟩
    · rw [List.reverse_reverse]
    · exact Nat.le_refl _
    · exact Nat.le_refl _
  | cons c rest ih =>
    have hsize (a : List Char) : byteLength (a ++ [c]) = byteLength a + c.utf8Size := by simp
    cases hc : m.replace? c with
    | none =>
      have hrest := (@ih (before ++ inside ++ [c]) [] (by simpa using h)).2
      rw [List.append_nil, hsize] at hrest
      simp only [runsFrom, hc]
      refine ⟨.cons_of_parts h (by rw [List.reverse_reverse]) ?_ ?_ (hrest.mono ?_ ?_),
        hrest.mono ?_ ?_⟩ <;> simp only [Text.byteLength_append] <;> omega
    | some image =>
      have himage : m.applyChars [c] = image := by simp [CharMap.applyChars, hc]
      have hgrown := (@ih before (inside ++ [c]) (by simpa using h)).1
      have hstarted := (@ih (before ++ inside) [c] (by simpa using h)).1
      rw [← List.append_assoc, hsize, CharMap.applyChars_append, List.reverse_append, himage]
        at hgrown
      rw [hsize, himage] at hstarted
      simp only [runsFrom, hc]
      exact ⟨hgrown.mono (by omega) (by omega), hstarted.mono (by omega) (by omega)⟩

/-- A whole text is one span. -/
theorem laid_ofWhole (text : List Char) : Laid id text 0 0 [ofWhole text] := by
  have hparts : [] ++ text ++ [] = text := by simp
  exact .cons_of_parts hparts rfl (Nat.le_refl 0) (Nat.zero_le _) (.nil _ _)

end Piece

/-! ## Tokenizers -/

namespace Tokenizer

/-- What a tokenizer makes of the characters of a span: a character map replaces them, and the other
tokenizers keep them. -/
def write : Tokenizer → List Char → List Char
  | charset m => m.applyChars
  | _ => id

/-- The pieces of every tokenizer stand on spans that do not go back. -/
theorem laid_pieces (t : Tokenizer) (text : List Char) :
    Piece.Laid t.write text 0 0 (t.pieces text) := by
  have hcuts (p : Pattern) : [] ++ (p.cut text).text = text := Pattern.Cuts.text_ofText p.expr text
  cases t with
  | regex p gaps =>
    cases gaps with
    | false => exact Piece.laid_matchesFrom (hcuts p)
    | true => exact Piece.laid_gapsFrom (hcuts p)
  | path p => exact @Piece.laid_segmentEnds text [] _ _ (hcuts p)
  | charset m =>
    have hparts : [] ++ [] ++ text = text := by simp
    exact (Piece.laid_runsFrom m hparts).2
  | whole =>
    simp only [pieces]
    split
    · exact .nil 0 0
    · exact Piece.laid_ofWhole text

/-- The pieces of every tokenizer lie on spans of the text, in order. -/
theorem laid_cut (t : Tokenizer) (cutting : Bool) (text : String) :
    Piece.Laid (if cutting then t else whole).write text.toList 0 0 (t.cut cutting text) := by
  unfold cut
  generalize (if cutting then t else whole) = t'
  dsimp only
  split
  · exact .nil 0 0
  · exact t'.laid_pieces text.toList

end Tokenizer

/-! ## Tokens -/

/-- The token holds the text of a piece, and stands where it does, counted from an offset. -/
structure Token.StandsOn (offset : Nat) (t : Token) (p : Piece) : Prop where
  text : t.text = String.ofList p.text
  startOffset : t.startOffset = some (offset + p.first)
  endOffset : t.endOffset = some (offset + p.last)

/-- Such pieces lie within the text. -/
theorem Piece.Laid.bounds {write : List Char → List Char} {text : List Char} {first last : Nat}
    {pieces : List Piece} (h : Laid write text first last pieces) :
    ∀ p ∈ pieces, p.first ≤ p.last ∧ p.last ≤ byteLength text := by
  obtain ⟨spans, rfl, -⟩ := h.exists_spans
  intro p hp
  obtain ⟨s, -, rfl⟩ := List.mem_map.mp hp
  exact ⟨s.first_le_last, s.last_le⟩

/-- Where offsets are asked for and the end of the text stays below the ceiling, tokens stand on
their pieces. -/
theorem Piece.Laid.forall₂_standsOn {o : Options} (hoffsets : o.offsets = true)
    {write : List Char → List Char} {text : List Char} {first last : Nat} {pieces : List Piece}
    (h : Laid write text first last pieces)
    (hfit : o.firstOffset + byteLength text ≤ Saturating.ceiling) :
    List.Forall₂ (Token.StandsOn o.firstOffset) (pieces.mapIdx (token o)) pieces := by
  refine List.forall₂_iff_get.mpr ⟨List.length_mapIdx, fun k hk hk' => ?_⟩
  obtain ⟨horder, hlast⟩ := h.bounds _ (pieces.get_mem ⟨k, hk'⟩)
  have hstart : Saturating.add o.firstOffset (pieces.get ⟨k, hk'⟩).first =
      o.firstOffset + (pieces.get ⟨k, hk'⟩).first := Nat.min_eq_left (by omega)
  have hend : Saturating.add o.firstOffset (pieces.get ⟨k, hk'⟩).last =
      o.firstOffset + (pieces.get ⟨k, hk'⟩).last := Nat.min_eq_left (by omega)
  rw [List.get_eq_getElem, List.getElem_mapIdx, token, apply_update]
  refine ⟨rfl, ?_, ?_⟩
  · dsimp only
    rw [if_pos hoffsets]
    exact congrArg some hstart
  · dsimp only
    rw [if_pos hoffsets]
    exact congrArg some hend

/-- Every token of an analysis stands on one of the pieces. -/
theorem Token.StandsOn.exists_piece {offset : Nat} {tokens : List Token} {pieces : List Piece}
    (h : List.Forall₂ (StandsOn offset) tokens pieces) {t : Token} (ht : t ∈ tokens) :
    ∃ p ∈ pieces, t.StandsOn offset p := by
  induction h with
  | nil => cases ht
  | cons hp _ ih =>
    rcases List.mem_cons.mp ht with rfl | ht
    · exact ⟨_, List.mem_cons_self, hp⟩
    · obtain ⟨p, hmem, hp⟩ := ih ht
      exact ⟨p, List.mem_cons_of_mem _ hmem, hp⟩

/-- Tokens that stand on pieces hold the texts of the pieces together. -/
theorem Token.StandsOn.join {offset : Nat} {tokens : List Token} {pieces : List Piece}
    (h : List.Forall₂ (StandsOn offset) tokens pieces) :
    String.join (tokens.map Token.text) = String.ofList (pieces.flatMap Piece.text) := by
  induction h with
  | nil => rfl
  | cons hp _ ih =>
    rw [List.map_cons, String.join_cons, List.flatMap_cons, String.ofList_append, hp.text, ih]

/-- The tokens of every tokenizer stand on spans of the text, one each. The spans lie between
characters and never go back; a token has the text of its span, which only a character map rewrites,
and the place and the ends of the span as its annotations, where they are asked for. No count passes
the ceiling. -/
theorem tokens_stand_on_spans (t : Tokenizer) (o : Options) (text : String) (w : Workspace) :
    ∃ spans : List (Span text.toList),
      (((t.tokenize o text).drain w).1 = spans.mapIdx fun k s =>
        { Token.ofOptions o with
          text := String.ofList ((if o.tokenize then t else .whole).write s.inside)
          unfiltered :=
            if o.keepUnfiltered then
              some (String.ofList ((if o.tokenize then t else .whole).write s.inside))
            else none
          position :=
            if o.positions then some (min (o.firstPosition + k) Saturating.ceiling) else none
          startOffset :=
            if o.offsets then some (min (o.firstOffset + s.first) Saturating.ceiling) else none
          endOffset :=
            if o.offsets then some (min (o.firstOffset + s.last) Saturating.ceiling) else none }) ∧
      spans.Pairwise Span.Precedes ∧
      ∀ s ∈ spans,
        s.first ≤ s.last ∧ s.last ≤ text.utf8ByteSize ∧
          (⟨s.first⟩ : String.Pos.Raw).IsValid text ∧ (⟨s.last⟩ : String.Pos.Raw).IsValid text := by
  obtain ⟨spans, hspans, hordered, -⟩ := (t.laid_cut o.tokenize text).exists_spans
  have hsize : byteLength text.toList = text.utf8ByteSize := by
    rw [Text.byteLength_eq_utf8ByteSize, String.ofList_toList]
  refine ⟨spans, ?_, hordered, fun s _ => ?_⟩
  · rw [t.drain_tokenize, hspans]
    refine List.ext_getElem (by simp) fun k _ _ => ?_
    rw [List.getElem_mapIdx, List.getElem_mapIdx, List.getElem_map]
    exact Piece.apply_update o k _ (.ofOptions o)
  · exact ⟨s.first_le_last, hsize ▸ s.last_le, s.isValid_first, s.isValid_last⟩

end TextAnalysis
