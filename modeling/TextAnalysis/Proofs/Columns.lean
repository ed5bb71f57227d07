import Mathlib.Data.List.Forall2
import TextAnalysis.CommandLine.Report
import TextAnalysis.Proofs.Describing

/-!
# Lines in columns

The line of a token consists of columns with tabs between them: its position, its text, and notes
behind the text, each where there is something to note. As long as texts hold no tab and no line end,
the lines and their columns can be read back from what is printed. What a column says cannot always:
a note on what the token was before filtering has the form of the mark of a stopped token, and so may
a text have. So a line ends with this mark for three reasons, of which one is that its token is
stopped.

Main statement: `lines_end_with_mark_iff`, the lines of tokens and exactly when they end with the mark.
-/

set_option autoImplicit false

namespace TextAnalysis

/-! ## Reading columns back -/

/-- What is joined from parts holds a character of a part, or the separator. -/
theorem mem_intercalate {c separator : Char} {parts : List (List Char)}
    (h : c ∈ [separator].intercalate parts) : c = separator ∨ ∃ part ∈ parts, c ∈ part := by
  cases parts with
  | nil => simp at h
  | cons first rest =>
    rw [intercalate_cons, List.mem_append, List.mem_flatMap] at h
    obtain hfirst | ⟨part, hpart, hc⟩ := h
    · exact .inr ⟨first, List.mem_cons_self, hfirst⟩
    · rcases List.mem_cons.mp hc with hseparator | hc
      · exact .inl hseparator
      · exact .inr ⟨part, List.mem_cons_of_mem first hpart, hc⟩

/-- A text ends with a separator and a part exactly where the part is the last of those behind the
first. -/
theorem suffix_iff_getLast?_splitOn {separator : Char} {last : List Char} (h : separator ∉ last)
    (text : List Char) :
    separator :: last <:+ text ↔ (text.splitOn separator).tail.getLast? = some last := by
  constructor
  · rintro ⟨front, rfl⟩
    rw [List.splitOn_append_cons_self, List.splitOn_eq_singleton h,
      List.tail_append_of_ne_nil (List.splitOn_ne_nil separator front), List.getLast?_concat]
  · intro hlast
    obtain ⟨first, rest, hparts⟩ := List.exists_cons_of_ne_nil (List.splitOn_ne_nil separator text)
    rw [hparts, List.tail_cons] at hlast
    obtain ⟨front, rfl⟩ := List.getLast?_eq_some_iff.mp hlast
    refine ⟨[separator].intercalate (first :: front), ?_⟩
    have htext : [separator].intercalate (text.splitOn separator) = text :=
      List.intercalate_splitOn separator
    rw [hparts, intercalate_cons, List.flatMap_append, List.flatMap_singleton] at htext
    rw [intercalate_cons, List.append_assoc]
    exact htext

namespace CommandLine

/-- Lines that hold no line end are what splitting at line ends leaves, and nothing is left behind
the last line end. -/
theorem splitOn_unlines {lines : List String} (h : ∀ line ∈ lines, '\n' ∉ line.toList) :
    (unlines lines).toList.splitOn '\n' = lines.map String.toList ++ [[]] := by
  induction lines with
  | nil => rfl
  | cons line rest ih =>
    obtain ⟨hline, hrest⟩ := List.forall_mem_cons.mp h
    have hunlines : (unlines (line :: rest)).toList =
        line.toList ++ '\n' :: (unlines rest).toList := by
      rw [unlines, List.map_cons, String.join_cons, String.toList_append, String.toList_append,
        List.append_assoc]
      rfl
    rw [hunlines, List.splitOn_append_cons_self_of_not_mem hline, ih hrest, List.map_cons,
      List.cons_append]

/-! ## The line of a token -/

/-- Where a token stands, as far as both ends are known. -/
def placeNote (t : Token) : List String :=
  match t.startOffset, t.endOffset with
  | some first, some last => ["[" ++ toString first ++ ".." ++ toString last ++ "]"]
  | _, _ => []

/-- What a token was before filtering, where that differs. -/
def unfilteredNote (t : Token) : List String :=
  match t.unfiltered with
  | some s => if s = t.text then [] else ["(" ++ s ++ ")"]
  | none => []

/-- The mark of a stopped token. -/
def stoppedNote (t : Token) : List String := if t.stopped then ["(stopped)"] else []

/-- The columns of the line of a token. -/
def columns (t : Token) : List String :=
  (t.position.map toString).toList ++ t.text :: (placeNote t ++ unfilteredNote t ++ stoppedNote t)

/-- Columns with tabs between them. -/
theorem toList_tokenLine (t : Token) :
    (tokenLine t).toList = ['\t'].intercalate ((columns t).map String.toList) := by
  have hplace : (match t.startOffset, t.endOffset with
      | some first, some last => "\t[" ++ toString first ++ ".." ++ toString last ++ "]"
      | _, _ => "").toList = ((placeNote t).map String.toList).flatMap ('\t' :: ·) := by
    unfold placeNote
    split <;> simp
  have hunfiltered : (match t.unfiltered with
      | some s => if s = t.text then "" else "\t(" ++ s ++ ")"
      | none => "").toList = ((unfilteredNote t).map String.toList).flatMap ('\t' :: ·) := by
    unfold unfilteredNote
    split
    · split <;> simp
    · rfl
  have hstopped : (if t.stopped then "\t(stopped)" else "").toList =
      ((stoppedNote t).map String.toList).flatMap ('\t' :: ·) := by
    unfold stoppedNote
    split <;> rfl
  unfold tokenLine columns
  simp only [String.toList_append, List.append_assoc, List.map_append, List.map_cons]
  cases t.position with
  | none =>
    simp only [Option.map_none, Option.toList_none, List.map_nil, List.nil_append, intercalate_cons,
      List.singleton_append, List.flatMap_append, ← hplace, ← hunfiltered, ← hstopped]
    rfl
  | some p =>
    simp only [Option.map_some, Option.toList_some, List.map_cons, List.map_nil, List.nil_append,
      List.cons_append, List.append_assoc, intercalate_cons, List.flatMap_cons,
      List.flatMap_append, String.toList_append, ← hplace, ← hunfiltered, ← hstopped]
    rfl

/-- Does the text fit into a column of a line? -/
def FitsColumn (s : String) : Prop := '\t' ∉ s.toList ∧ '\n' ∉ s.toList

instance (s : String) : Decidable (FitsColumn s) := inferInstanceAs (Decidable (_ ∧ _))

/-- Texts that fit into a column fit one behind the other. -/
theorem FitsColumn.append {s s' : String} (h : FitsColumn s) (h' : FitsColumn s') :
    FitsColumn (s ++ s') := by
  rw [FitsColumn, String.toList_append, List.mem_append, List.mem_append]
  exact ⟨not_or_intro h.1 h'.1, not_or_intro h.2 h'.2⟩

/-- A number fits into a column. -/
theorem fitsColumn_toString (n : Nat) : FitsColumn (toString n) := by
  have hdigits : ∀ c ∈ (toString n).toList, c.isDigit = true := by
    intro c hc
    have hmem : c ∈ Nat.toDigits 10 n := by simpa using hc
    exact Nat.isDigit_of_mem_toDigits (by decide) (by decide) hmem
  exact ⟨fun h => absurd (hdigits _ h) (by decide), fun h => absurd (hdigits _ h) (by decide)⟩

/-- A token whose texts fit into columns has a line of such columns. -/
theorem fitsColumn_of_mem_columns {t : Token} (htext : FitsColumn t.text)
    (hunfiltered : ∀ s ∈ t.unfiltered, FitsColumn s) {column : String} (h : column ∈ columns t) :
    FitsColumn column := by
  have hbracket : FitsColumn "[" ∧ FitsColumn ".." ∧ FitsColumn "]" := by decide
  rw [columns, List.mem_append, List.mem_cons, List.mem_append, List.mem_append] at h
  rcases h with hposition | rfl | ((hplace | hwas) | hstopped)
  · obtain ⟨p, -, rfl⟩ := Option.map_eq_some_iff.mp (Option.mem_toList.mp hposition)
    exact fitsColumn_toString p
  · exact htext
  · unfold placeNote at hplace
    split at hplace
    · rw [List.mem_singleton.mp hplace]
      obtain ⟨hopen, hdots, hclose⟩ := hbracket
      exact (((hopen.append (fitsColumn_toString _)).append hdots).append
        (fitsColumn_toString _)).append hclose
    · cases hplace
  · unfold unfilteredNote at hwas
    split at hwas
    · next s hs =>
      split at hwas
      · cases hwas
      · rw [List.mem_singleton.mp hwas]
        have hparentheses : FitsColumn "(" ∧ FitsColumn ")" := by decide
        exact (hparentheses.1.append (hunfiltered s hs)).append hparentheses.2
    · cases hwas
  · unfold stoppedNote at hstopped
    split at hstopped
    · rw [List.mem_singleton.mp hstopped]
      decide
    · cases hstopped

/-! ## The end of a line -/

section Ends

variable (t : Token) (before : Option String)

/-- A stopped token has the mark, whatever stands before it. -/
theorem stoppedNote_ends :
    (stoppedNote t).getLast?.or before = some "(stopped)" ↔
      t.stopped = true ∨ before = some "(stopped)" := by
  unfold stoppedNote
  cases t.stopped <;> simp

/-- What a token was before filtering is noted in parentheses, as the mark is written. -/
theorem unfilteredNote_ends :
    (unfilteredNote t).getLast?.or before = some "(stopped)" ↔
      (t.unfiltered = some "stopped" ∧ t.text ≠ "stopped") ∨
        ((t.unfiltered = none ∨ t.unfiltered = some t.text) ∧ before = some "(stopped)") := by
  unfold unfilteredNote
  cases t.unfiltered with
  | none => simp
  | some s =>
    have hparentheses : "(" ++ s ++ ")" = "(stopped)" ↔ s = "stopped" := by
      have hmark : "(stopped)" = "(" ++ "stopped" ++ ")" := rfl
      rw [hmark, String.append_left_inj, String.append_right_inj]
    by_cases hs : s = t.text
    · subst hs
      simp
    · have hne : s = "stopped" → t.text ≠ "stopped" := by
        rintro rfl htext
        exact hs htext.symm
      simpa [hs, hparentheses] using hne

/-- Where a token stands is noted in brackets. -/
theorem placeNote_ends :
    (placeNote t).getLast?.or before = some "(stopped)" ↔
      (t.startOffset = none ∨ t.endOffset = none) ∧ before = some "(stopped)" := by
  unfold placeNote
  cases t.startOffset with
  | none => simp
  | some first =>
    cases t.endOffset with
    | none => simp
    | some last =>
      have hbracket : "[" ++ toString first ++ ".." ++ toString last ++ "]" ≠ "(stopped)" := by
        intro h
        have hlists := congrArg String.toList h
        simp at hlists
      simpa using hbracket

/-- A text is no note, but it may look like one where it stands behind a position. -/
theorem getLast?_columns :
    (columns t).tail.getLast? =
      (stoppedNote t).getLast?.or ((unfilteredNote t).getLast?.or
        ((placeNote t).getLast?.or (t.position.map fun _ => t.text))) := by
  have hnotes : (placeNote t ++ unfilteredNote t ++ stoppedNote t).getLast? =
      (stoppedNote t).getLast?.or ((unfilteredNote t).getLast?.or (placeNote t).getLast?) := by
    rw [List.getLast?_append, List.getLast?_append]
  unfold columns
  cases t.position with
  | none =>
    rw [Option.map_none, Option.map_none, Option.or_none]
    exact hnotes
  | some p =>
    rw [Option.map_some, Option.map_some, ← List.singleton_append]
    show ([t.text] ++ _).getLast? = _
    rw [List.getLast?_append, hnotes, Option.or_assoc, Option.or_assoc]
    rfl

/-- Why the line of a token ends with the mark of a stopped token. -/
inductive EndsWithMark : Prop
  /-- The token is stopped. -/
  | stopped (h : t.stopped = true)
  /-- The token was `stopped` before filtering, and is something else now. -/
  | unfiltered (h : t.unfiltered = some "stopped") (hnow : t.text ≠ "stopped")
  /-- The text is that of the mark, stands behind a position, and nothing is noted behind it. -/
  | text (h : t.text = "(stopped)") (hposition : t.position.isSome = true)
    (hplace : t.startOffset = none ∨ t.endOffset = none)
    (hunfiltered : t.unfiltered = none ∨ t.unfiltered = some t.text)

/-- A line ends with the mark where its last column behind the first is the mark. -/
theorem endsWithMark_iff :
    EndsWithMark t ↔ (columns t).tail.getLast? = some "(stopped)" := by
  have htext : t.position.map (fun _ => t.text) = some "(stopped)" ↔
      t.text = "(stopped)" ∧ t.position.isSome = true := by
    cases t.position <;> simp
  rw [getLast?_columns, stoppedNote_ends, unfilteredNote_ends, placeNote_ends, htext]
  constructor
  · rintro (h | ⟨h, hnow⟩ | ⟨h, hposition, hplace, hunfiltered⟩)
    · exact .inl h
    · exact .inr (.inl ⟨h, hnow⟩)
    · exact .inr (.inr ⟨hunfiltered, hplace, h, hposition⟩)
  · rintro (h | ⟨h, hnow⟩ | ⟨hunfiltered, hplace, h, hposition⟩)
    · exact .stopped h
    · exact .unfiltered h hnow
    · exact .text h hposition hplace hunfiltered

instance : Decidable (EndsWithMark t) := decidable_of_iff' _ (endsWithMark_iff t)

end Ends

/-- The token has texts that fit into the columns of a line. -/
structure FitsLine (t : Token) : Prop where
  text : FitsColumn t.text
  unfiltered : ∀ s ∈ t.unfiltered, FitsColumn s

/-- Both texts of a token have to fit. -/
theorem fitsLine_iff {t : Token} :
    FitsLine t ↔ FitsColumn t.text ∧ ∀ s ∈ t.unfiltered, FitsColumn s :=
  ⟨fun h => ⟨h.text, h.unfiltered⟩, fun h => ⟨h.1, h.2⟩⟩

instance (t : Token) : Decidable (FitsLine t) := decidable_of_iff' _ fitsLine_iff

namespace FitsLine

variable {t : Token}

/-- The columns of a line can be read back. -/
theorem splitOn_tokenLine (h : FitsLine t) :
    (tokenLine t).toList.splitOn '\t' = (columns t).map String.toList := by
  rw [toList_tokenLine]
  refine List.splitOn_intercalate '\t' ?_ (by simp [columns])
  exact List.forall_mem_map.mpr fun column hcolumn =>
    (fitsColumn_of_mem_columns h.text h.unfiltered hcolumn).1

/-- A line holds no line end. -/
theorem not_mem_tokenLine (h : FitsLine t) : '\n' ∉ (tokenLine t).toList := by
  intro hmem
  rw [toList_tokenLine] at hmem
  obtain heq | ⟨_, hcolumn, hc⟩ := mem_intercalate hmem
  · exact absurd heq (by decide)
  · obtain ⟨column, hmem, rfl⟩ := List.mem_map.mp hcolumn
    exact (fitsColumn_of_mem_columns h.text h.unfiltered hmem).2 hc

/-- A line ends with the mark where this is its last column behind the first. -/
theorem suffix_iff_endsWithMark (h : FitsLine t) :
    "\t(stopped)".toList <:+ (tokenLine t).toList ↔ EndsWithMark t := by
  have hlast : ((columns t).map String.toList).tail.getLast? =
      (columns t).tail.getLast?.map String.toList := by
    rw [← List.map_tail, List.getLast?_map]
  have hmark : (columns t).tail.getLast?.map String.toList = some "(stopped)".toList ↔
      (columns t).tail.getLast? = some "(stopped)" := by
    constructor
    · intro hlists
      obtain ⟨column, hcolumn, heq⟩ := Option.map_eq_some_iff.mp hlists
      rw [hcolumn, String.toList_inj.mp heq]
    · intro hcolumn
      rw [hcolumn, Option.map_some]
  rw [endsWithMark_iff, ← hmark, ← hlast, ← h.splitOn_tokenLine]
  exact suffix_iff_getLast?_splitOn (by decide) _

end FitsLine

/-- What is printed of tokens for people, unless more detail is asked for, has one line for each token
in their order, and nothing else. A line has the columns of its token, and it ends with a tab and the
mark of a stopped token for one of the three reasons, of which one is that its token is stopped. -/
theorem lines_end_with_mark_iff (a : Arguments) (hformat : a.format = .human)
    (hverbosity : a.verbosity ≤ 1) (pipeline : String) (ts : List Token)
    (hfits : ∀ t ∈ ts, FitsLine t) :
    ∃ lines : List (List Char),
      ((Report.tokens pipeline ts).render a).toList.splitOn '\n' = lines ++ [[]] ∧
      List.Forall₂ (fun t line =>
        line.splitOn '\t' = (columns t).map String.toList ∧
        ("\t(stopped)".toList <:+ line ↔ EndsWithMark t)) ts lines := by
  have hlines : ∀ line ∈ ts.map tokenLine, '\n' ∉ line.toList :=
    List.forall_mem_map.mpr fun t ht => (hfits t ht).not_mem_tokenLine
  have hrender : (Report.tokens pipeline ts).render a = unlines (ts.map tokenLine) := by
    rw [Report.render, hformat]
    dsimp only
    rw [Report.lines, if_neg (Nat.not_lt.mpr hverbosity), List.nil_append]
  refine ⟨ts.map fun t => (tokenLine t).toList, ?_, ?_⟩
  · rw [hrender, splitOn_unlines hlines, List.map_map]
    rfl
  · refine List.forall₂_map_right_iff.mpr (List.forall₂_same.mpr fun t ht => ?_)
    exact ⟨(hfits t ht).splitOn_tokenLine, (hfits t ht).suffix_iff_endsWithMark⟩

/-- A stopped token with every note, and tokens that are not stopped: two whose texts are that of the
mark, and one whose note looks like it. -/
theorem lines_end_with_mark_iff_stopped :
    let a : Arguments := { command := .analyze {} }
    let ts : List Token :=
      [{ text := "the", unfiltered := some "The", stopped := true, position := some 10,
         startOffset := some 0, endOffset := some 3 },
       { text := "(stopped)", position := some 11 },
       { text := "(stopped)" },
       { text := "stop", unfiltered := some "stopped" }]
    a.format = .human ∧ a.verbosity ≤ 1 ∧ (∀ t ∈ ts, FitsLine t) ∧
      ∃ lines : List (List Char),
        ((Report.tokens "stemming" ts).render a).toList.splitOn '\n' = lines ++ [[]] ∧
        lines.map String.ofList =
          ["10\tthe\t[0..3]\t(The)\t(stopped)", "11\t(stopped)", "(stopped)", "stop\t(stopped)"] ∧
        List.Forall₂ (fun t line =>
          line.splitOn '\t' = (columns t).map String.toList ∧
          ("\t(stopped)".toList <:+ line ↔ EndsWithMark t)) ts lines ∧
        ts.map (fun t => decide (EndsWithMark t)) = [true, true, false, true] := by
  intro a ts
  have hfits : ∀ t ∈ ts, FitsLine t := by decide
  obtain ⟨lines, hsplit, hlines⟩ :=
    lines_end_with_mark_iff a rfl (by decide) "stemming" ts hfits
  refine ⟨rfl, by decide, hfits, lines, hsplit, ?_, hlines, by decide⟩
  have hdrop : lines =
      (((Report.tokens "stemming" ts).render a).toList.splitOn '\n').dropLast := by
    rw [hsplit, List.dropLast_concat]
  rw [hdrop]
  decide

/-- The line of a token that is not stopped ends with the mark where the token was `stopped` before it
was stemmed. -/
theorem unfiltered_form_reads_as_mark :
    let a : Arguments := { command := .analyze {} }
    let t : Token := { text := "stop", unfiltered := some "stopped" }
    a.format = .human ∧ a.verbosity = 1 ∧ FitsLine t ∧
      (Report.tokens "stemming" [t]).render a = "stop\t(stopped)\n" ∧
      ¬ ("\t(stopped)".toList <:+ "stop\t(stopped)".toList ↔ t.stopped = true) := by
  refine ⟨rfl, rfl, ?_, ?_, ?_⟩ <;> decide

end CommandLine

end TextAnalysis
