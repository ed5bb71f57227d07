import TextAnalysis.Preset
import TextAnalysis.Proofs.Interchanging
import TextAnalysis.Proofs.Prefixes
import TextAnalysis.Proofs.Rewriting
import TextAnalysis.Proofs.Text.Trimming

/-!
# Keywords

Keywords stand between blanks, or between commas. The pattern for them takes one or more characters
that do not separate, as many as it can, so what it finds is what splitting the text at its
separators leaves, without the empty pieces (`Pattern.map_found_collect`). The filters of the preset
only rewrite texts: the offsets of a keyword are those of its piece, whatever has been taken off it.

Main statement: `keywords_are_pieces`, the tokens of the preset for every text and all its settings.
-/

set_option autoImplicit false

namespace TextAnalysis

open Text (Span)

/-! ## Splitting -/

namespace Text

variable {separates : Char → Bool}

/-- The pieces of a text between separators, without the empty ones. -/
def split (separates : Char → Bool) (text : List Char) : List (List Char) :=
  (text.splitOnP separates).filter fun piece => !piece.isEmpty

/-- An empty text has no pieces. -/
theorem split_nil : split separates [] = [] := rfl

/-- The pieces on both sides of a separator are those of the text. -/
theorem split_append_cons {c : Char} (hc : separates c = true) (text rest : List Char) :
    split separates (text ++ c :: rest) = split separates text ++ split separates rest := by
  rw [split, List.splitOnP_append_cons text rest hc, List.filter_append]
  rfl

/-- A separator at the start of a text is passed over. -/
theorem split_cons {c : Char} (hc : separates c = true) (rest : List Char) :
    split separates (c :: rest) = split separates rest :=
  split_append_cons hc [] rest

/-- A text without separators is one piece. -/
theorem split_eq_singleton {piece : List Char} (hne : piece ≠ [])
    (h : ∀ c ∈ piece, separates c = false) : split separates piece = [piece] := by
  rw [split, List.splitOnP_eq_singleton h]
  simp [hne]

/-- The first piece of a text that starts with no separator goes on up to the next one. -/
theorem split_cons_of_not_separates {c : Char} (hc : separates c = false) (rest : List Char) :
    split separates (c :: rest) =
      (c :: rest.takeWhile fun d => !separates d) ::
        split separates (rest.dropWhile fun d => !separates d) := by
  have hpiece : ∀ d ∈ c :: rest.takeWhile fun d => !separates d, separates d = false := by
    intro d hd
    rcases List.mem_cons.mp hd with rfl | hd
    · exact hc
    · simpa using List.mem_takeWhile_imp hd
  have hsplit := split_eq_singleton (List.cons_ne_nil _ _) hpiece
  have hparts := List.takeWhile_append_dropWhile (p := fun d => !separates d) (l := rest)
  have hhead := List.head?_dropWhile_not (fun d => !separates d) rest
  cases hrest : rest.dropWhile fun d => !separates d with
  | nil =>
    rw [hrest, List.append_nil] at hparts
    rw [hparts] at hsplit ⊢
    exact hsplit
  | cons d more =>
    rw [hrest] at hparts hhead
    have hd : separates d = true := by simpa using hhead
    rw [← hparts, ← List.cons_append, split_append_cons hd, hparts, hsplit, split_cons hd]
    rfl

end Text

namespace Pattern

variable (s : CharSet)

/-- A character that is not of the set is skipped. -/
theorem collect_of_not_mem {c : Char} (hc : s.mem c = false) (last : Option Char)
    (skipped : List Char) (ended : Bool) (rest : List Char) :
    Cuts.collect (atLeastOne s) last skipped ended 0 (c :: rest) =
      Cuts.collect (atLeastOne s) (some c) (c :: skipped) false 0 rest := by
  rw [Cuts.collect, matchLength_atLeastOne_of_not_mem s hc]

/-- A character of the set is matched together with those that follow. -/
theorem collect_of_mem {c : Char} (hc : s.mem c = true) (last : Option Char)
    (skipped : List Char) (ended : Bool) (rest : List Char) :
    ∃ last', Cuts.collect (atLeastOne s) last skipped ended 0 (c :: rest) =
      .push skipped.reverse (c :: rest.takeWhile s.mem)
        (.collect (atLeastOne s) last' [] true 0 (rest.dropWhile s.mem)) := by
  have htake : rest.take (rest.takeWhile s.mem).length = rest.takeWhile s.mem :=
    (List.prefix_iff_eq_take.mp (List.takeWhile_prefix s.mem)).symm
  have hdrop : rest.drop (rest.takeWhile s.mem).length = rest.dropWhile s.mem := by
    have hparts := List.take_append_drop (rest.takeWhile s.mem).length rest
    rw [htake] at hparts
    exact List.append_cancel_left (hparts.trans List.takeWhile_append_dropWhile.symm)
  refine ⟨(rest.takeWhile s.mem).getLast?.or (some c), ?_⟩
  rw [Cuts.collect, matchLength_atLeastOne_of_mem s hc]
  dsimp only
  rw [Cuts.collect_inside, List.take_succ_cons, hdrop, htake]

/-- What a pattern that repeats a set of characters finds in a text is what splitting the text at
all other characters leaves. -/
theorem map_found_collect (last : Option Char) (skipped : List Char) (ended : Bool)
    (rest : List Char) :
    (Cuts.collect (atLeastOne s) last skipped ended 0 rest).cuts.map Cut.found =
      Text.split (fun c => !s.mem c) rest := by
  -- by the length of the rest, of which a match takes a whole piece
  induction hlength : rest.length using Nat.strongRecOn generalizing last skipped rest ended with
  | _ n ih =>
    cases rest with
    | nil =>
      rw [Cuts.collect, matchLength_atLeastOne_nil]
      simp [Text.split_nil]
    | cons c rest =>
      rw [List.length_cons] at hlength
      cases hc : s.mem c with
      | false =>
        rw [collect_of_not_mem s hc, Text.split_cons (by simp [hc])]
        exact ih rest.length (by omega) _ _ _ rest rfl
      | true =>
        obtain ⟨last', hcollect⟩ := collect_of_mem s hc last skipped ended rest
        have hle := (List.dropWhile_sublist s.mem (l := rest)).length_le
        have hrest := ih _ (by omega) last' [] true (rest.dropWhile s.mem) rfl
        rw [hcollect, Text.split_cons_of_not_separates (by simp [hc])]
        simp only [Bool.not_not]
        exact congrArg (List.cons _) hrest

/-- The spans that cuts have found hold what has been found. -/
theorem Cuts.Finds.map_inside {text before : List Char} {cuts : List Cut}
    {found : List (Span text)} (h : Finds before cuts found) :
    found.map Span.inside = cuts.map Cut.found := by
  induction h with
  | nil => rfl
  | cons _ hinside _ ih => rw [List.map_cons, List.map_cons, hinside, ih]

end Pattern

/-! ## The preset for keywords -/

namespace KeywordPreset

variable (s : KeywordPreset)

/-- Does the character stand between keywords? -/
def separates (c : Char) : Bool :=
  if s.commas then c == ',' else c == ' ' || c == '\t' || c == '\r' || c == '\n'

/-- The keyword is what the settings make of the piece: without the white space around it where
commas separate keywords, and in lower case where this is asked for. -/
def Makes (piece keyword : List Char) : Prop :=
  ∃ kept, (if s.commas then Text.Trims piece kept else kept = piece) ∧
    keyword = if s.lowercase then Unicode.lowercase kept else kept

/-- The characters that keywords consist of. -/
def inner : Pattern.CharSet :=
  if s.commas then .allBut ','
  else .compl (.union (.single ' ') (.union (.single '\t') (.union (.single '\r') (.single '\n'))))

/-- The pattern of keywords takes all but separators. -/
theorem mem_inner (c : Char) : s.inner.mem c = !s.separates c := by
  unfold inner separates
  split
  · simp [Pattern.CharSet.allBut, Pattern.CharSet.mem_single]
    rfl
  · simp [Pattern.CharSet.mem_single, Bool.or_assoc]
    rfl

/-- The source of the pattern for keywords. -/
def source : String := if s.commas then "[^,]+" else "[^ \\t\\r\\n]+"

/-- The expression of the settings reads as this pattern. -/
theorem readPattern_source :
    Pattern.readPattern s.source = .ok (Pattern.atLeastOne s.inner) := by
  unfold source inner
  split <;> decide

/-- The tokenizer of the preset. -/
def tokenizer : Tokenizer :=
  .regex ⟨s.source, Pattern.atLeastOne s.inner, s.readPattern_source⟩ false

/-- The filters of the preset. -/
def filters : List Filter :=
  (if s.commas then [.strip] else []) ++ (if s.lowercase then [.lowercase] else [])

/-- The pipeline of the preset. -/
def pipeline : Pipeline := ⟨"keyword", s.tokenizer, s.filters⟩

/-- The tokenizer of the settings can be made. -/
theorem ofPattern_source : Tokenizer.ofPattern s.source false = .ok s.tokenizer := by
  rw [Tokenizer.ofPattern, Pattern.ofSource_eq_ok s.readPattern_source]
  rfl

/-- Whatever the settings are, the preset is built, and building it leaves no trace. -/
theorem run_build (w : Workspace) : s.build.run w = (.ok s.pipeline, w) := by
  have htokenizer : (if s.commas then Tokenizer.betweenCommas else Tokenizer.spaceSeparated) =
      .ok s.tokenizer :=
    (apply_ite (Tokenizer.ofPattern · false) _ _ _).symm.trans s.ofPattern_source
  unfold build pipeline filters
  rw [htokenizer]
  cases s.commas <;> cases s.lowercase <;> rfl

/-- What the filters of the preset do to texts. -/
def rewritings : List (List Char → List Char) :=
  (if s.commas then [Text.trim] else []) ++ (if s.lowercase then [Unicode.lowercase] else [])

/-- The filters of the settings rewrite texts as their plain functions do. -/
theorem rewrites_workers (o : Options) :
    List.Forall₂ Worker.Rewrites (s.pipeline.workers o) s.rewritings := by
  have hfilters : s.pipeline.workers o = (if s.commas then [Worker.strip] else []) ++
      (if s.lowercase then [Worker.lowercase] else []) := by
    unfold Pipeline.workers Pipeline.activeFilters pipeline filters
    cases s.commas <;> cases s.lowercase <;> cases o.keepForms <;> rfl
  rw [hfilters, rewritings]
  refine List.rel_append ?_ ?_
  · split
    · exact .cons Worker.rewrites_strip .nil
    · exact .nil
  · split
    · exact .cons Worker.rewrites_lowercase .nil
    · exact .nil

/-- The filters make a keyword of every piece. -/
theorem makes_rewriteAll (piece : List Char) : s.Makes piece (rewriteAll s.rewritings piece) := by
  refine ⟨if s.commas then Text.trim piece else piece, ?_, ?_⟩
  · split
    · exact Text.trims_trim piece
    · rfl
  · unfold rewritings rewriteAll
    cases s.commas <;> cases s.lowercase <;> rfl

end KeywordPreset

/-- Rewriting the text of a token leaves it where it lies. -/
theorem Token.LiesOn.rewrite {o : Options} {t : Token} {text : List Char} {r : Span text}
    (h : t.LiesOn o r) (f : List Char → List Char) : (t.rewrite f).LiesOn o r :=
  ⟨h.startOffset, h.endOffset⟩

/-- The tokens of the preset for keywords are the pieces of the text between blanks, or between
commas, that are not empty: one token for each, in their order. A token holds what the settings make
of its piece, which may be nothing at all, and it keeps the offsets of the whole piece. -/
theorem keywords_are_pieces (s : KeywordPreset) (w : Workspace) :
    ∃ p : Pipeline, s.build.run w = (.ok p, w) ∧
      ∀ (o : Options) (text : String) (v : Workspace), o.tokenize = true →
        ∃ (tokens : List Token) (pieces : List (Span text.toList)),
          p.outcome v o (.text text) = .ok tokens ∧
          pieces.map Span.inside = Text.split s.separates text.toList ∧
          (∀ r : Span text.toList, r ∈ pieces ↔ r.IsRun fun c => !s.separates c) ∧
          pieces.Pairwise (fun r r' => r.last < r'.first) ∧
          List.Forall₂ (fun t r => s.Makes r.inside t.text.toList ∧ t.LiesOn o r) tokens pieces := by
  refine ⟨s.pipeline, s.run_build w, fun o text v htokenize => ?_⟩
  obtain ⟨pieces, hfinds, hruns⟩ := Pattern.cuts_atLeastOne s.inner text.toList
  have hinner : s.inner.mem = fun c => !s.separates c := funext s.mem_inner
  have htokens := Tokenizer.forall₂_drain_of_finds (p := ⟨s.source, _, s.readPattern_source⟩)
    (Pattern.neverEmpty_atLeastOne s.inner) o htokenize text v hfinds
  refine ⟨_, pieces, s.pipeline.outcome_eq v o (.text text), ?_, ?_, hruns.ordered, ?_⟩
  · rw [hfinds.map_inside]
    refine (Pattern.map_found_collect s.inner none [] false text.toList).trans ?_
    simp only [s.mem_inner, Bool.not_not]
  · intro r
    rw [hruns.mem_iff r, hinner]
    simp
  · have hdrain := Pipeline.drain_of_rewrites (s.rewrites_workers o) text v
    refine (congrArg (List.Forall₂ _ · pieces) hdrain).mpr ?_
    refine List.forall₂_map_left_iff.mpr (htokens.imp fun t r ht => ⟨?_, ht.2.rewrite _⟩)
    have hmakes := s.makes_rewriteAll r.inside
    rwa [Token.rewrite, ht.1, String.toList_ofList, String.toList_ofList]

/-- Between commas there may be white space of several bytes, or nothing. -/
theorem keywords_are_pieces_commas :
    let s : KeywordPreset := { commas := true, lowercase := true }
    let o : Options := { offsets := true }
    let text := " New York ,,\u00A0,ÄB"
    ∃ p : Pipeline, s.build.run {} = (.ok p, {}) ∧ o.tokenize = true ∧
      ∃ (tokens : List Token) (pieces : List (Span text.toList)),
        p.outcome {} o (.text text) = .ok tokens ∧
        List.Forall₂ (fun t r => s.Makes r.inside t.text.toList ∧ t.LiesOn o r) tokens pieces ∧
        pieces.map Span.inside = [" New York ".toList, ['\u00A0'], "ÄB".toList] ∧
        tokens.map (fun t => (t.text, t.startOffset, t.endOffset)) =
          [("new york", some 0, some 10), ("", some 12, some 14), ("äb", some 15, some 18)] := by
  intro s o text
  obtain ⟨p, hbuild, htokens⟩ := keywords_are_pieces s {}
  obtain rfl : p = s.pipeline := by
    have hpair := (Prod.mk.inj (hbuild.symm.trans (s.run_build {}))).1
    exact Except.ok.inj hpair
  obtain ⟨tokens, pieces, houtcome, hsplit, -, -, hmakes⟩ := htokens o text {} rfl
  refine ⟨s.pipeline, hbuild, rfl, tokens, pieces, houtcome, hmakes, ?_, ?_⟩
  · rw [hsplit]
    decide
  · obtain rfl := Except.ok.inj houtcome
    decide

end TextAnalysis
