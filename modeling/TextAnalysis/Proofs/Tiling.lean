import TextAnalysis.Proofs.Spanning

/-!
# Matches and gaps

The matches of a pattern and the gaps between them are found by two tokenizers, one after the other
and each on its own. Put together in the order in which they begin, with a match before a gap that
begins at the same place, they lie side by side and leave nothing of the text out. This depends on
the matches only as far as they are cuts of the text: they come in order and do not overlap.

Main statement: `matches_and_gaps_tile`.
-/

set_option autoImplicit false

namespace TextAnalysis

open Text (Span byteLength)
open Pattern (Cut Cuts)

/-! ## Pieces -/

namespace Piece

/-- Does the first piece begin before the second one, or at the same place? -/
def beginsBy (p q : Piece) : Bool := p.first ≤ q.first

/-- The matches and the gaps among the cuts of a text that starts at `offset`, as they follow one
another in the text. -/
def sideBySide (offset : Nat) (trailing : List Char) : List Cut → List Piece
  | [] => gapAt offset trailing
  | c :: rest =>
    let first := offset + byteLength c.skipped
    let last := first + byteLength c.found
    gapAt offset c.skipped ++ ⟨c.found, first, last⟩ :: sideBySide last trailing rest

/-- A gap with characters in it is one piece, -/
theorem gapAt_of_ne_nil (offset : Nat) {text : List Char} (h : text ≠ []) :
    gapAt offset text = [⟨text, offset, offset + byteLength text⟩] := by
  rw [gapAt, if_neg]
  simpa using h

/-- and an empty one is none. -/
theorem mem_gapAt {offset : Nat} {text : List Char} {p : Piece} :
    p ∈ gapAt offset text ↔ text ≠ [] ∧ p = ⟨text, offset, offset + byteLength text⟩ := by
  by_cases h : text = []
  · simp [h, gapAt]
  · simp [h, gapAt_of_ne_nil offset h]

/-- Matches behind an offset begin behind it. -/
theorem le_first_of_mem_matchesFrom {offset : Nat} {cuts : List Cut} {p : Piece}
    (hp : p ∈ matchesFrom offset cuts) : offset ≤ p.first := by
  induction cuts generalizing offset with
  | nil => simp [matchesFrom] at hp
  | cons c rest ih =>
    rcases List.mem_cons.mp hp with rfl | hp
    · exact Nat.le_add_right _ _
    · have hrest := ih hp
      omega

/-- So do gaps, and these are not empty. -/
theorem of_mem_gapsFrom {offset : Nat} {trailing : List Char} {cuts : List Cut} {p : Piece}
    (hp : p ∈ gapsFrom offset trailing cuts) : offset ≤ p.first ∧ p.text ≠ [] := by
  induction cuts generalizing offset with
  | nil =>
    obtain ⟨hne, rfl⟩ := mem_gapAt.mp hp
    exact ⟨Nat.le_refl _, hne⟩
  | cons c rest ih =>
    rcases List.mem_append.mp hp with hp | hp
    · obtain ⟨hne, rfl⟩ := mem_gapAt.mp hp
      exact ⟨Nat.le_refl _, hne⟩
    · obtain ⟨hle, hne⟩ := ih hp
      exact ⟨by omega, hne⟩

/-- A gap ends before a match begins, or begins behind its end. -/
theorem apart_of_mem {offset : Nat} {trailing : List Char} {cuts : List Cut} {p q : Piece}
    (hp : p ∈ gapsFrom offset trailing cuts) (hq : q ∈ matchesFrom offset cuts) :
    p.last ≤ q.first ∨ q.last ≤ p.first := by
  induction cuts generalizing offset with
  | nil => simp [matchesFrom] at hq
  | cons c rest ih =>
    rcases List.mem_append.mp hp with hgap | hp
    · -- the gap in front of the first match is in front of all matches
      obtain ⟨-, rfl⟩ := mem_gapAt.mp hgap
      refine .inl ?_
      rcases List.mem_cons.mp hq with rfl | hq
      · exact Nat.le_refl _
      · have hfirst := le_first_of_mem_matchesFrom hq
        dsimp only
        omega
    · rcases List.mem_cons.mp hq with rfl | hq
      · exact .inr (of_mem_gapsFrom hp).1
      · exact ih hp hq

/-- A match goes first where no gap begins before it. -/
theorem cons_merge_of_le {p : Piece} {ps qs : List Piece} (h : ∀ q ∈ qs, p.first ≤ q.first) :
    (p :: ps).merge qs beginsBy = p :: ps.merge qs beginsBy := by
  cases qs with
  | nil => rw [List.merge_right, List.merge_right]
  | cons q qs =>
    have hpq : p.beginsBy q = true := decide_eq_true (h q List.mem_cons_self)
    rw [List.cons_merge_cons, if_pos hpq]

/-- Merging the gaps into the matches gives both in the order of the text. -/
theorem merge_gapsFrom (offset : Nat) (trailing : List Char) (cuts : List Cut) :
    (matchesFrom offset cuts).merge (gapsFrom offset trailing cuts) beginsBy =
      sideBySide offset trailing cuts := by
  induction cuts generalizing offset with
  | nil => rw [matchesFrom, List.nil_merge, gapsFrom, sideBySide]
  | cons c rest ih =>
    have hmatch : (matchesFrom offset (c :: rest)).merge
        (gapsFrom (offset + byteLength c.skipped + byteLength c.found) trailing rest) beginsBy =
        ⟨c.found, offset + byteLength c.skipped,
            offset + byteLength c.skipped + byteLength c.found⟩ ::
          sideBySide (offset + byteLength c.skipped + byteLength c.found) trailing rest := by
      rw [← ih]
      refine cons_merge_of_le fun q hq => ?_
      have hfirst := (of_mem_gapsFrom hq).1
      dsimp only
      omega
    rw [gapsFrom, sideBySide]
    by_cases hskipped : c.skipped = []
    · simpa [hskipped, gapAt] using hmatch
    · -- the gap begins before the match, since it is not empty
      have hpos := Text.byteLength_pos hskipped
      rw [gapAt_of_ne_nil offset hskipped, List.singleton_append, List.singleton_append, ← hmatch,
        matchesFrom, List.cons_merge_cons, if_neg]
      simp only [beginsBy, decide_eq_true_eq]
      omega

end Piece

/-! ## Spans that do not overlap -/

/-- Of two beginnings of a text the one with fewer bytes begins the other one. -/
theorem Text.exists_eq_append_of_byteLength_le {a b a' b' : List Char} (h : a ++ b = a' ++ b')
    (hle : byteLength a ≤ byteLength a') : ∃ between, a' = a ++ between ∧ b = between ++ b' := by
  obtain ⟨between, ha, hb⟩ | ⟨between, ha, hb⟩ := List.append_eq_append_iff.mp h
  · exact ⟨between, ha, hb⟩
  · have hnil : between = [] := by
      by_contra hne
      have hpos := byteLength_pos hne
      rw [ha, byteLength_append] at hle
      omega
    rw [hnil, List.append_nil] at ha
    rw [hnil, List.nil_append] at hb
    exact ⟨[], by rw [ha, List.append_nil], hb.symm⟩

/-- Spans in order that do not overlap are the matches of cuts. -/
theorem Pattern.Cuts.exists_of_spans {text before after : List Char}
    (hparts : before ++ after = text) {found : List (Span text)} (hbefore : ∀ s ∈ found, byteLength before ≤ s.first)
    (hfound : found.Pairwise fun s s' => s.last ≤ s'.first) :
    ∃ c : Cuts, c.text = after ∧
      Piece.matchesFrom (byteLength before) c.cuts = found.map (Piece.ofSpan id) := by
  induction found generalizing before after with
  | nil => exact ⟨⟨[], after⟩, rfl, rfl⟩
  | cons s rest ih =>
    obtain ⟨hs, hrest⟩ := List.pairwise_cons.mp hfound
    have htexts : before ++ after = s.before ++ (s.inside ++ s.after) := by
      rw [hparts, ← List.append_assoc, s.parts]
    obtain ⟨skipped, hskipped, hafter⟩ := Text.exists_eq_append_of_byteLength_le htexts
      (hbefore s List.mem_cons_self)
    obtain ⟨c, hc, hmatches⟩ := ih s.parts hs hrest
    refine ⟨.push skipped s.inside c, by rw [text_push, hc, hafter], ?_⟩
    have hfirst : byteLength before + byteLength skipped = s.first := by
      rw [Span.first, hskipped, Text.byteLength_append]
    have hlast : s.first + byteLength s.inside = byteLength (s.before ++ s.inside) :=
      s.last_eq.symm
    simp only [push, Piece.matchesFrom, List.map_cons, hfirst, hlast, hmatches]
    rfl

/-! ## Tokens -/

namespace Token

/-- Does the first token begin before the second one, or at the same place? -/
def beginsBy (t u : Token) : Bool := t.startOffset.getD 0 ≤ u.startOffset.getD 0

/-- The tokens lie side by side on a text that starts at `first`: each begins where the one before
it ends, and holds the characters in between; nothing of the text is left. -/
inductive Tiles : Nat → List Char → List Token → Prop
  | nil (first : Nat) : Tiles first [] []
  | cons {first : Nat} {t : Token} {inside rest : List Char} {tokens : List Token}
    (htext : t.text = String.ofList inside) (hstart : t.startOffset = some first)
    (hend : t.endOffset = some (first + byteLength inside))
    (hrest : Tiles (first + byteLength inside) rest tokens) :
    Tiles first (inside ++ rest) (t :: tokens)

/-- Tokens that lie side by side hold the text together. -/
theorem Tiles.join {first : Nat} {text : List Char} {tokens : List Token}
    (h : Tiles first text tokens) : String.join (tokens.map Token.text) = String.ofList text := by
  induction h with
  | nil first => rfl
  | cons htext _ _ _ ih =>
    rw [List.map_cons, String.join_cons, htext, ih, String.ofList_append]

/-- One token ends before the other one begins. -/
def Apart (t u : Token) : Prop :=
  ∃ first last first' last', t.startOffset = some first ∧ t.endOffset = some last ∧
    u.startOffset = some first' ∧ u.endOffset = some last' ∧ (last ≤ first' ∨ last' ≤ first)

variable {offset : Nat}

/-- Tokens begin in the order of the pieces they stand on. -/
theorem beginsBy_eq_of_standsOn {t u : Token} {p q : Piece} (hp : t.StandsOn offset p)
    (hq : u.StandsOn offset q) : t.beginsBy u = p.beginsBy q := by
  simp [beginsBy, Piece.beginsBy, hp.startOffset, hq.startOffset]

/-- Tokens are merged as the pieces that they stand on. -/
theorem forall₂_standsOn_merge {found gaps : List Token} {ps qs : List Piece}
    (hfound : List.Forall₂ (StandsOn offset) found ps)
    (hgaps : List.Forall₂ (StandsOn offset) gaps qs) :
    List.Forall₂ (StandsOn offset) (found.merge gaps beginsBy) (ps.merge qs Piece.beginsBy) := by
  induction hfound generalizing gaps qs with
  | nil => simpa only [List.nil_merge] using hgaps
  | cons hp hfound ih =>
    induction hgaps with
    | nil => simpa only [List.merge_right] using List.Forall₂.cons hp hfound
    | cons hq hgaps ihgaps =>
      rw [List.cons_merge_cons, List.cons_merge_cons, beginsBy_eq_of_standsOn hp hq]
      split
      · exact .cons hp (ih (.cons hq hgaps))
      · exact .cons hq ihgaps

/-- A token on a piece lies in front of those behind the piece. -/
theorem Tiles.cons_of_standsOn {t : Token} {p : Piece} {rest : List Char} {tokens : List Token}
    (ht : t.StandsOn offset p) (hp : p.last = p.first + byteLength p.text)
    (h : Tiles (offset + p.last) rest tokens) :
    Tiles (offset + p.first) (p.text ++ rest) (t :: tokens) := by
  have hlast : offset + p.last = offset + p.first + byteLength p.text := by omega
  rw [hlast] at h
  exact .cons ht.text ht.startOffset (hlast ▸ ht.endOffset) h

/-- Tokens on pieces that lie side by side do so themselves. -/
theorem tiles_of_sideBySide {tokens : List Token} {first : Nat} {trailing : List Char}
    {cuts : List Cut}
    (h : List.Forall₂ (StandsOn offset) tokens (Piece.sideBySide first trailing cuts)) :
    Tiles (offset + first) (⟨cuts, trailing⟩ : Cuts).text tokens := by
  -- in front of everything there may be a gap
  have hgap {first : Nat} {gap rest : List Char} {tokens : List Token} {pieces : List Piece}
      (hrest : ∀ {tokens}, List.Forall₂ (StandsOn offset) tokens pieces →
        Tiles (offset + (first + byteLength gap)) rest tokens)
      (h : List.Forall₂ (StandsOn offset) tokens (Piece.gapAt first gap ++ pieces)) :
      Tiles (offset + first) (gap ++ rest) tokens := by
    by_cases hnil : gap = []
    · subst hnil
      exact hrest h
    · rw [Piece.gapAt_of_ne_nil first hnil, List.singleton_append] at h
      obtain ⟨t, behind, ht, hbehind, rfl⟩ := List.forall₂_cons_right_iff.mp h
      exact .cons_of_standsOn ht rfl (hrest hbehind)
  induction cuts generalizing first tokens with
  | nil =>
    rw [Piece.sideBySide, ← List.append_nil (Piece.gapAt first trailing)] at h
    have hnil {tokens : List Token} (h : List.Forall₂ (StandsOn offset) tokens []) :
        Tiles (offset + (first + byteLength trailing)) [] tokens := by
      rw [List.forall₂_nil_right_iff.mp h]
      exact .nil _
    simpa [Cuts.text] using hgap hnil h
  | cons c rest ih =>
    rw [Cuts.text_cons]
    refine hgap (fun hmatch => ?_) h
    obtain ⟨t, behind, ht, hbehind, rfl⟩ := List.forall₂_cons_right_iff.mp hmatch
    exact .cons_of_standsOn ht rfl (ih hbehind)

end Token

/-- The tokens of matches and of gaps tile a text that starts at `first`. -/
structure Tiling (first : Nat) (text : String) (found gaps : List Token) : Prop where
  /-- Merged in the order in which they begin, they lie side by side and leave nothing out. -/
  tiles : Token.Tiles first text.toList (found.merge gaps Token.beginsBy)
  /-- Merged, they hold the text together. -/
  join : String.join ((found.merge gaps Token.beginsBy).map Token.text) = text
  /-- No gap is empty. -/
  nonempty : ∀ t ∈ gaps, t.text ≠ ""
  /-- No gap overlaps a match. -/
  apart : ∀ t ∈ gaps, ∀ u ∈ found, t.Apart u

/-- Whatever cuts are made of a text, tokens that stand on the matches and on the gaps tile it. -/
theorem Tiling.of_standsOn {offset : Nat} {text : String} {c : Cuts} (htext : c.text = text.toList)
    {found gaps : List Token}
    (hfound : List.Forall₂ (Token.StandsOn offset) found (Piece.matchesFrom 0 c.cuts))
    (hgaps : List.Forall₂ (Token.StandsOn offset) gaps (Piece.gapsFrom 0 c.rest c.cuts)) :
    Tiling offset text found gaps := by
  have hmerged := Token.forall₂_standsOn_merge hfound hgaps
  rw [Piece.merge_gapsFrom] at hmerged
  have htiles : Token.Tiles offset text.toList (found.merge gaps Token.beginsBy) :=
    htext ▸ Token.tiles_of_sideBySide hmerged
  refine ⟨htiles, by rw [htiles.join, String.ofList_toList], fun t ht hempty => ?_,
    fun t ht u hu => ?_⟩
  · obtain ⟨p, hmem, hp⟩ := Token.StandsOn.exists_piece hgaps ht
    rw [hp.text, String.ofList_eq_empty_iff] at hempty
    exact (Piece.of_mem_gapsFrom hmem).2 hempty
  · obtain ⟨p, hp, htp⟩ := Token.StandsOn.exists_piece hgaps ht
    obtain ⟨q, hq, huq⟩ := Token.StandsOn.exists_piece hfound hu
    refine ⟨_, _, _, _, htp.startOffset, htp.endOffset, huq.startOffset, huq.endOffset, ?_⟩
    rcases Piece.apart_of_mem hp hq with hbefore | hbehind
    · exact .inl (by omega)
    · exact .inr (by omega)

/-- A pattern cuts a text, and its matches and its gaps are those of the cuts. An empty text is not
even looked at. -/
theorem Tokenizer.exists_cuts (p : Pattern) (text : String) :
    ∃ c : Cuts, c.text = text.toList ∧
      (regex p false).cut true text = Piece.matchesFrom 0 c.cuts ∧
      (regex p true).cut true text = Piece.gapsFrom 0 c.rest c.cuts := by
  by_cases hempty : text = ""
  · subst hempty
    exact ⟨⟨[], []⟩, rfl, rfl, rfl⟩
  · refine ⟨p.cut text.toList, Cuts.text_ofText p.expr text.toList, ?_, ?_⟩ <;>
      simp [cut, pieces, hempty]

/-- The tokens for the matches of a pattern and for the gaps between them tile the text: merged in
the order in which they begin, a match first where a gap begins at the same place, they lie side by
side from the start of the text to its end and hold it together; gaps are not empty and do not
overlap matches. This holds of every pattern, and of whatever spans may have been found instead, as long as
they come in order and do not overlap. -/
theorem matches_and_gaps_tile (o : Options) (hoffsets : o.offsets = true) (text : String)
    (hfit : o.firstOffset + text.utf8ByteSize ≤ Saturating.ceiling) (v w : Workspace) :
    (∀ found : List (Span text.toList), found.Pairwise (fun s s' => s.last ≤ s'.first) →
      ∃ c : Cuts, c.text = text.toList ∧
        Piece.matchesFrom 0 c.cuts = found.map (Piece.ofSpan id) ∧
        Tiling o.firstOffset text ((Stream.ofPieces o (Piece.matchesFrom 0 c.cuts)).drain v).1
          ((Stream.ofPieces o (Piece.gapsFrom 0 c.rest c.cuts)).drain w).1) ∧
    (o.tokenize = true → ∀ p : Pattern,
      Tiling o.firstOffset text (((Tokenizer.regex p false).tokenize o text).drain v).1
        (((Tokenizer.regex p true).tokenize o text).drain w).1) := by
  have hpieces (c : Cuts) (htext : c.text = text.toList) :
      Tiling o.firstOffset text ((Piece.matchesFrom 0 c.cuts).mapIdx (Piece.token o))
        ((Piece.gapsFrom 0 c.rest c.cuts).mapIdx (Piece.token o)) := by
    have hfit' : o.firstOffset + byteLength text.toList ≤ Saturating.ceiling :=
      Text.byteLength_toList text ▸ hfit
    have hmatches := @Piece.laid_matchesFrom text.toList [] c.rest c.cuts htext
    have hgaps := @Piece.laid_gapsFrom text.toList [] c.rest c.cuts htext
    exact .of_standsOn htext (hmatches.forall₂_standsOn hoffsets hfit')
      (hgaps.forall₂_standsOn hoffsets hfit')
  refine ⟨fun found hfound => ?_, fun htokenize p => ?_⟩
  · obtain ⟨c, htext, hmatches⟩ :=
      @Cuts.exists_of_spans text.toList [] _ rfl found (fun s _ => s.first.zero_le) hfound
    refine ⟨c, htext, hmatches, ?_⟩
    rw [Stream.drain_ofPieces, Stream.drain_ofPieces]
    exact hpieces c htext
  · obtain ⟨c, htext, hfound, hgaps⟩ := Tokenizer.exists_cuts p text
    rw [Tokenizer.drain_tokenize, Tokenizer.drain_tokenize, htokenize, hfound, hgaps]
    exact hpieces c htext

/-- A pattern with an empty match at either end of the text, of which the first begins where a gap
does, and two spans that touch, of which the first is empty. -/
theorem matches_and_gaps_tile_axxb :
    let p : Pattern := ⟨"x*", .loop true 0 none (.one (.range 'x' 'x')), by decide⟩
    let o : Options := { offsets := true }
    let text := "axxb"
    let spans : List (Span text.toList) :=
      [⟨['a'], [], ['x', 'x', 'b'], by decide⟩, ⟨['a'], ['x'], ['x', 'b'], by decide⟩]
    let found := (((Tokenizer.regex p false).tokenize o text).drain {}).1
    let gaps := (((Tokenizer.regex p true).tokenize o text).drain {}).1
    (o.offsets = true ∧ o.firstOffset + text.utf8ByteSize ≤ Saturating.ceiling ∧
      spans.Pairwise (fun s s' => s.last ≤ s'.first) ∧ o.tokenize = true) ∧
    (∃ c : Cuts, c.text = text.toList ∧
      Piece.matchesFrom 0 c.cuts = spans.map (Piece.ofSpan id) ∧
      Tiling 0 text ((Stream.ofPieces o (Piece.matchesFrom 0 c.cuts)).drain {}).1
        ((Stream.ofPieces o (Piece.gapsFrom 0 c.rest c.cuts)).drain {}).1) ∧
    Tiling 0 text found gaps ∧
    found.map (fun t => (t.text, t.startOffset, t.endOffset)) =
      [("", some 0, some 0), ("xx", some 1, some 3), ("", some 4, some 4)] ∧
    gaps.map (fun t => (t.text, t.startOffset, t.endOffset)) =
      [("a", some 0, some 1), ("b", some 3, some 4)] := by
  intro p o text spans found gaps
  have hfit : o.firstOffset + text.utf8ByteSize ≤ Saturating.ceiling := by decide
  have hspans : spans.Pairwise fun s s' => s.last ≤ s'.first := by decide
  obtain ⟨hwhatever, hpattern⟩ := matches_and_gaps_tile o rfl text hfit {} {}
  exact ⟨⟨rfl, hfit, hspans, rfl⟩, hwhatever spans hspans, hpattern rfl p, by decide, by decide⟩

end TextAnalysis
