import TextAnalysis.Proofs.Spanning
import TextAnalysis.Proofs.Text.Trimming

/-!
# Runs of characters

A run of a text is a span that holds characters of one kind only, at least one, and cannot be made
longer on either side. Of two runs that begin at different places, the later one begins behind the
end of the earlier one, with at least one other character between them. A reader that goes through a
text from its start therefore has found all runs once it has opened one at every character of the
kind that follows another one.

Main statement: `charset_tokens_are_runs`, the tokens of a character map as the runs of a text
between breaks.
-/

set_option autoImplicit false

namespace TextAnalysis

namespace Text

/-- Of two beginnings of a text the longer one has more bytes. -/
theorem byteLength_lt_of_length_lt {a b a' b' : List Char} (h : a ++ b = a' ++ b')
    (hlt : a.length < a'.length) : byteLength a < byteLength a' := by
  obtain ⟨between, rfl, -⟩ | ⟨between, rfl, -⟩ := List.append_eq_append_iff.mp h
  · have hne : between ≠ [] := by rintro rfl; simp at hlt
    have hpos := byteLength_pos hne
    rw [byteLength_append]
    omega
  · rw [List.length_append] at hlt
    omega

namespace Span

variable {text : List Char}

/-- A span is known by what stands before it and what is inside. -/
theorem eq_of_before_of_inside {s s' : Span text} (hbefore : s.before = s'.before)
    (hinside : s.inside = s'.inside) : s = s' := by
  obtain ⟨before, inside, after, hparts⟩ := s
  obtain ⟨before', inside', after', hparts'⟩ := s'
  obtain rfl : before = before' := hbefore
  obtain rfl : inside = inside' := hinside
  obtain rfl : after = after' := List.append_cancel_left (hparts.trans hparts'.symm)
  rfl

/-- The number of characters up to the end of the span. -/
def stop (s : Span text) : Nat := s.before.length + s.inside.length

/-- Behind the end of a span there is what follows it. -/
theorem length_eq (s : Span text) : text.length = s.stop + s.after.length := by
  rw [stop, ← List.length_append, ← List.length_append, s.parts]

/-- Of two spans with characters in between, the first ends before the second begins, in bytes as
well. -/
theorem last_lt_first {s s' : Span text} (h : s.stop < s'.before.length) : s.last < s'.first := by
  have htexts : s.before ++ s.inside ++ s.after = s'.before ++ (s'.inside ++ s'.after) := by
    rw [s.parts, ← List.append_assoc, s'.parts]
  exact byteLength_lt_of_length_lt htexts (by rwa [List.length_append])

/-- A span of characters with a property that is as long as it can be. -/
structure IsRun (p : Char → Bool) (s : Span text) : Prop where
  nonempty : s.inside ≠ []
  inside : ∀ c ∈ s.inside, p c = true
  before : ∀ c ∈ s.before.getLast?, p c = false
  after : ∀ c ∈ s.after.head?, p c = false

/-- A run is known by its characters and by those next to it. -/
theorem isRun_iff {p : Char → Bool} {s : Span text} :
    s.IsRun p ↔ s.inside ≠ [] ∧ s.inside.all p = true ∧
      (s.before.getLast?.all fun c => !p c) = true ∧ (s.after.head?.all fun c => !p c) = true := by
  simp only [List.all_eq_true, Option.all_eq_true, Bool.not_eq_true']
  exact ⟨fun h => ⟨h.nonempty, h.inside, h.before, h.after⟩, fun ⟨hne, hinside, hbefore, hafter⟩ =>
    ⟨hne, hinside, hbefore, hafter⟩⟩

instance (p : Char → Bool) (s : Span text) : Decidable (s.IsRun p) := decidable_of_iff' _ isRun_iff

namespace IsRun

variable {p : Char → Bool} {s s' : Span text}

/-- What a run takes of the text behind its start is decided by the text. -/
theorem takeWhile_eq (h : s.IsRun p) : (s.inside ++ s.after).takeWhile p = s.inside :=
  (cut_append h.inside h.after).1

/-- A run begins at the end of what is in front of it, never inside another run or at its end. -/
theorem eq_or_stop_lt (h : s.IsRun p) (h' : s'.IsRun p)
    (hle : s.before.length ≤ s'.before.length) : s = s' ∨ s.stop < s'.before.length := by
  have htexts : s.before ++ (s.inside ++ s.after) = s'.before ++ (s'.inside ++ s'.after) := by
    rw [← List.append_assoc, s.parts, ← List.append_assoc, s'.parts]
  rcases Nat.lt_or_ge s.stop s'.before.length with hlt | hge
  · exact .inr hlt
  refine .inl ?_
  obtain ⟨between, hbefore, hrest⟩ | ⟨between, hbefore, hrest⟩ :=
    List.append_eq_append_iff.mp htexts
  · -- the second run would begin inside the first one, or at its end
    cases hbetween : between with
    | nil =>
      rw [hbetween, List.append_nil] at hbefore
      rw [hbetween, List.nil_append] at hrest
      refine eq_of_before_of_inside hbefore.symm ?_
      rw [← h.takeWhile_eq, hrest, h'.takeWhile_eq]
    | cons c rest =>
      have hne : between ≠ [] := by rw [hbetween]; exact List.cons_ne_nil c rest
      have hlength : between.length ≤ s.inside.length := by
        rw [hbefore, List.length_append, stop] at hge
        omega
      have hinside : between <+: s.inside :=
        List.prefix_of_prefix_length_le ⟨_, hrest.symm⟩ (List.prefix_append _ _) hlength
      have hlast : between.getLast hne ∈ s'.before.getLast? := by
        rw [hbefore, List.getLast?_append_of_ne_nil _ hne, List.getLast?_eq_getLast_of_ne_nil hne]
        exact rfl
      have htrue := h.inside _ (hinside.subset (List.getLast_mem hne))
      rw [h'.before _ hlast] at htrue
      cases htrue
  · have hnil : between = [] := by
      refine List.eq_nil_of_length_eq_zero ?_
      rw [hbefore, List.length_append] at hle
      omega
    rw [hnil, List.append_nil] at hbefore
    rw [hnil, List.nil_append] at hrest
    refine eq_of_before_of_inside hbefore ?_
    rw [← h.takeWhile_eq, ← hrest, h'.takeWhile_eq]

end IsRun

/-- The list holds the runs that do not begin before the given number of characters, in order. -/
structure RunsFrom (p : Char → Bool) (text : List Char) (start : Nat) (runs : List (Span text)) :
    Prop where
  mem_iff : ∀ s, s ∈ runs ↔ s.IsRun p ∧ start ≤ s.before.length
  ordered : runs.Pairwise fun s s' => s.last < s'.first

namespace RunsFrom

variable {p : Char → Bool} {start : Nat} {runs : List (Span text)}

/-- No run begins behind the end of a text. -/
theorem nil (h : text.length ≤ start) : RunsFrom p text start [] := by
  refine ⟨fun s => ⟨fun hs => by simp at hs, fun hs => ?_⟩, .nil⟩
  obtain ⟨hrun, hstart⟩ := hs
  have hpos := List.length_pos_iff.mpr hrun.nonempty
  have hlength := s.length_eq
  rw [stop] at hlength
  omega

/-- No run begins at a character of another kind. -/
theorem of_false {before rest : List Char} {c : Char} (hparts : before ++ c :: rest = text)
    (hc : p c = false) (h : RunsFrom p text (before.length + 1) runs) :
    RunsFrom p text before.length runs := by
  refine ⟨fun s => (h.mem_iff s).trans ⟨fun hs => ⟨hs.1, by omega⟩, fun hs => ⟨hs.1, ?_⟩⟩,
    h.ordered⟩
  obtain ⟨hrun, hstart⟩ := hs
  refine Nat.lt_of_le_of_ne hstart fun heq => ?_
  have htexts : before ++ c :: rest = s.before ++ (s.inside ++ s.after) := by
    rw [hparts, ← List.append_assoc, s.parts]
  have hrest := (List.append_inj htexts heq).2
  obtain ⟨d, more, hinside⟩ := List.exists_cons_of_ne_nil hrun.nonempty
  rw [hinside, List.cons_append, List.cons.injEq] at hrest
  have htrue := hrun.inside d (by simp [hinside])
  rw [← hrest.1, hc] at htrue
  cases htrue

/-- Behind a run the next one begins after one more character at the earliest. -/
theorem cons {s : Span text} (hs : s.IsRun p) (h : RunsFrom p text (s.stop + 1) runs) :
    RunsFrom p text s.before.length (s :: runs) := by
  have hstop : s.before.length ≤ s.stop := Nat.le_add_right _ _
  refine ⟨fun s' => ?_, .cons (fun s' hs' => last_lt_first ((h.mem_iff s').mp hs').2) h.ordered⟩
  rw [List.mem_cons, h.mem_iff]
  constructor
  · rintro (rfl | ⟨hs', hstart⟩)
    · exact ⟨hs, Nat.le_refl _⟩
    · exact ⟨hs', by omega⟩
  · rintro ⟨hs', hstart⟩
    rcases hs.eq_or_stop_lt hs' hstart with heq | hlt
    · exact .inl heq.symm
    · exact .inr ⟨hs', hlt⟩

end RunsFrom

end Span

end Text

open Text (Span byteLength)

/-! ## Runs between breaks -/

namespace CharMap

variable (m : CharMap)

/-- Characters are replaced one by one. -/
theorem applyChars_cons (c : Char) (cs : List Char) :
    m.applyChars (c :: cs) = (m.replace? c).getD [] ++ m.applyChars cs := rfl

/-- What is kept is not replaced by nothing. -/
theorem replace?_ne_nil {c : Char} {image : List Char} (h : m.replace? c = some image) :
    image ≠ [] := by
  unfold replace? at h
  split at h
  · split at h
    · cases h
    · next hempty =>
      cases h
      simpa using hempty
  · split at h <;> cases h
    exact List.cons_ne_nil c []

/-- Characters that are kept leave some text. -/
theorem applyChars_ne_nil {cs : List Char} (hne : cs ≠ [])
    (hkept : ∀ c ∈ cs, (!m.isBreak c) = true) : m.applyChars cs ≠ [] := by
  obtain ⟨c, rest, rfl⟩ := List.exists_cons_of_ne_nil hne
  have hc : m.replace? c ≠ none := by
    have hbreak := hkept c List.mem_cons_self
    rw [Ne, ← m.isBreak_iff]
    simpa using hbreak
  obtain ⟨image, himage⟩ := Option.ne_none_iff_exists'.mp hc
  rw [applyChars_cons, himage, Option.getD_some]
  exact List.append_ne_nil_of_left_ne_nil (m.replace?_ne_nil himage) _

end CharMap

namespace Piece

variable (m : CharMap)

/-- The run that is being read, if one has been opened: where it begins, and its replacement, last
character first. -/
def opened (before inside : List Char) : Option (Nat × List Char) :=
  if inside.isEmpty then none else some (byteLength before, (m.applyChars inside).reverse)

/-- Together the pieces hold the replacement of the whole text. -/
theorem flatMap_text_runsFrom (offset : Nat) (run : Option (Nat × List Char)) (rest : List Char) :
    (runsFrom m offset run rest).flatMap Piece.text =
      (run.elim [] fun r => r.2.reverse) ++ m.applyChars rest := by
  induction rest generalizing offset run with
  | nil => cases run <;> simp [runsFrom, CharMap.applyChars]
  | cons c rest ih =>
    rw [CharMap.applyChars_cons]
    cases hc : m.replace? c <;> cases run <;> simp [runsFrom, hc, ih]

/-- While a map reads a text, the characters since the last break are the run that it is reading,
and the pieces to come are this run and those behind it. -/
theorem exists_runs_of_parts {text before inside rest : List Char}
    (hparts : before ++ inside ++ rest = text)
    (hinside : ∀ c ∈ inside, (!m.isBreak c) = true)
    (hbefore : ∀ c ∈ before.getLast?, (!m.isBreak c) = false) :
    ∃ runs : List (Span text),
      runsFrom m (byteLength (before ++ inside)) (opened m before inside) rest =
          runs.map (ofSpan m.applyChars) ∧
        Span.RunsFrom (fun c => !m.isBreak c) text before.length runs := by
  induction rest generalizing before inside with
  | nil =>
    have hlength : text.length = before.length + inside.length := by simp [← hparts]
    by_cases hnil : inside = []
    · subst hnil
      exact ⟨[], rfl, .nil (Nat.le_of_eq hlength)⟩
    · let s : Span text := ⟨before, inside, [], hparts⟩
      have hs : s.IsRun fun c => !m.isBreak c := ⟨hnil, hinside, hbefore, by simp [s]⟩
      have hbehind : text.length ≤ s.stop + 1 := hlength.trans_le (Nat.le_succ _)
      refine ⟨[s], ?_, .cons hs (.nil hbehind)⟩
      simp [opened, hnil, runsFrom, ofSpan, s, Span.first, Span.last]
  | cons c rest ih =>
    cases hc : m.replace? c with
    | some image =>
      have hkept : (!m.isBreak c) = true := by
        have hbreak := m.isBreak_iff c
        rw [hc] at hbreak
        simpa using hbreak
      have hinside' : ∀ d ∈ inside ++ [c], (!m.isBreak d) = true := by
        intro d hd
        rcases List.mem_append.mp hd with hd | hd
        · exact hinside d hd
        · rwa [List.mem_singleton.mp hd]
      obtain ⟨runs, hruns, hfrom⟩ := ih (by simpa using hparts) hinside' hbefore
      refine ⟨runs, ?_, hfrom⟩
      rw [← hruns, ← List.append_assoc, Text.byteLength_append (before ++ inside) [c],
        Text.byteLength_singleton]
      by_cases hnil : inside = []
      · simp [opened, hnil, runsFrom, hc, CharMap.applyChars]
      · simp [opened, hnil, runsFrom, hc, CharMap.applyChars]
    | none =>
      have hbreak : (!m.isBreak c) = false := by rw [(m.isBreak_iff c).mpr hc]; rfl
      have hlast : ∀ d ∈ (before ++ inside ++ [c]).getLast?, (!m.isBreak d) = false := by
        intro d hd
        rw [List.getLast?_concat] at hd
        cases hd
        exact hbreak
      obtain ⟨runs, hruns, hfrom⟩ := @ih (before ++ inside ++ [c]) [] (by simpa using hparts)
        (by simp) hlast
      rw [List.append_nil, Text.byteLength_append, Text.byteLength_singleton] at hruns
      by_cases hnil : inside = []
      · subst hnil
        refine ⟨runs, ?_, .of_false (by simpa using hparts) hbreak (by simpa using hfrom)⟩
        rw [← hruns]
        simp [opened, runsFrom, hc]
      · let s : Span text := ⟨before, inside, c :: rest, hparts⟩
        have hs : s.IsRun fun c => !m.isBreak c :=
          ⟨hnil, hinside, hbefore, by simpa [s] using hbreak⟩
        have hbehind : (before ++ inside ++ [c]).length = s.stop + 1 := by
          simp [s, Span.stop, Nat.add_assoc]
        refine ⟨s :: runs, ?_, .cons hs (hbehind ▸ hfrom)⟩
        rw [List.map_cons, ← hruns]
        simp [opened, hnil, runsFrom, hc, ofSpan, s, Span.first, Span.last]

/-- The pieces of a text are its runs between breaks. -/
theorem exists_runs (text : List Char) :
    ∃ runs : List (Span text),
      runsFrom m 0 none text = runs.map (ofSpan m.applyChars) ∧
        Span.RunsFrom (fun c => !m.isBreak c) text 0 runs :=
  @exists_runs_of_parts m text [] [] text rfl (by simp) (by simp)

end Piece

/-- The pieces of a character map are the runs between breaks, and an empty text has none. -/
theorem Tokenizer.cut_charset (m : CharMap) (text : String) :
    (charset m).cut true text = Piece.runsFrom m 0 none text.toList :=
  cut_true rfl text

/-- What a character filter makes of a text that is not cut. -/
theorem CharMap.join_drain_whole_through (m : CharMap) (o : Options) (text : String)
    (keepForms : Bool) (w : Workspace) :
    String.join
        ((((Tokenizer.whole.tokenize o text).through keepForms (.charset m)).drain w).1.map
          Token.text) =
      m.apply text := by
  rw [Stream.drain_fst, Stream.tokens, Stream.through]
  dsimp only
  rw [Tokenizer.pending_tokenize, (Tokenizer.whole.start_tokenize o text).1]
  by_cases htext : text = ""
  · subst htext
    simp [Tokenizer.cut, Tokenizer.pieces, Piece.updatesFrom, tokensFrom, apply, applyChars]
  · have hcut : Tokenizer.whole.cut o.tokenize text = [.ofWhole text.toList] := by
      simp [Tokenizer.cut, Tokenizer.pieces, htext]
    rw [hcut]
    simp [Piece.updatesFrom, tokensFrom, passThrough, Running.ofFilter, Running.step,
      Running.worker, Filter.settle, Worker.step, Piece.apply_update, Piece.ofWhole]

/-- The tokens of a character map are the runs between breaks, one each and in order: they stand on
the bytes of their run, and hold its replacement, which is never empty. Together they hold what a
character filter makes of the whole text. -/
theorem charset_tokens_are_runs (m : CharMap) (o : Options) (text : String) (w : Workspace)
    (htokenize : o.tokenize = true) (hoffsets : o.offsets = true)
    (hfit : o.firstOffset + text.utf8ByteSize ≤ Saturating.ceiling) :
    let tokens := (((Tokenizer.charset m).tokenize o text).drain w).1
    let uncut := (Tokenizer.whole.tokenize o text).through o.keepForms (.charset m)
    (∃ runs : List (Span text.toList),
      (∀ s, s ∈ runs ↔ s.IsRun fun c => !m.isBreak c) ∧
      runs.Pairwise (fun s s' => s.last < s'.first) ∧
      List.Forall₂ (fun t s =>
        t.text = m.apply (String.ofList s.inside) ∧ t.text ≠ "" ∧
          t.startOffset = some (o.firstOffset + s.first) ∧
          t.endOffset = some (o.firstOffset + s.last)) tokens runs) ∧
    String.join (tokens.map Token.text) = m.apply text ∧
    String.join ((uncut.drain w).1.map Token.text) = m.apply text := by
  intro tokens uncut
  have hcut : (Tokenizer.charset m).cut o.tokenize text = Piece.runsFrom m 0 none text.toList := by
    rw [htokenize, Tokenizer.cut_charset]
  have htokens : tokens = (Piece.runsFrom m 0 none text.toList).mapIdx (Piece.token o) := by
    rw [← hcut]
    exact Tokenizer.drain_tokenize _ o text w
  obtain ⟨runs, hruns, hfrom⟩ := Piece.exists_runs m text.toList
  have hstands : List.Forall₂ (Token.StandsOn o.firstOffset) tokens
      (runs.map (Piece.ofSpan m.applyChars)) := by
    rw [htokens, ← hruns]
    exact ((Tokenizer.charset m).laid_pieces text.toList).forall₂_standsOn hoffsets
      (Text.byteLength_toList text ▸ hfit)
  have hjoin : String.join (tokens.map Token.text) = m.apply text := by
    rw [Token.StandsOn.join hstands, ← hruns, Piece.flatMap_text_runsFrom]
    rfl
  refine ⟨⟨runs, fun s => by simpa using hfrom.mem_iff s, hfrom.ordered, ?_⟩, hjoin,
    m.join_drain_whole_through o text o.keepForms w⟩
  have hruns' := List.forall₂_map_right_iff.mp hstands
  refine List.forall₂_iff_get.mpr ⟨hruns'.length_eq, fun k hk hk' => ?_⟩
  have hk'' := hruns'.get hk hk'
  have hrun := ((hfrom.mem_iff _).mp (runs.get_mem ⟨k, hk'⟩)).1
  refine ⟨?_, fun hempty => ?_, hk''.startOffset, hk''.endOffset⟩
  · rw [hk''.text, CharMap.apply, String.toList_ofList]
    rfl
  · rw [hk''.text, String.ofList_eq_empty_iff] at hempty
    exact m.applyChars_ne_nil hrun.nonempty hrun.inside hempty

/-- Two runs with breaks in front, between and none behind, and a character of two bytes that is
replaced by two. -/
theorem charset_tokens_are_runs_strasse :
    let m := (({} : CharMap).map 'ß' "ss").breakOn '-'
    let o : Options := { offsets := true, firstOffset := 5 }
    let text := "-ß--aß"
    let tokens := (((Tokenizer.charset m).tokenize o text).drain {}).1
    (o.tokenize = true ∧ o.offsets = true ∧
      o.firstOffset + text.utf8ByteSize ≤ Saturating.ceiling) ∧
    (∃ runs : List (Span text.toList),
      (∀ s, s ∈ runs ↔ s.IsRun fun c => !m.isBreak c) ∧ runs.length = 2) ∧
    String.join (tokens.map Token.text) = m.apply text ∧
    tokens.map (fun t => (t.text, t.startOffset, t.endOffset)) =
      [("ss", some 6, some 8), ("ass", some 10, some 13)] := by
  intro m o text tokens
  have hfit : o.firstOffset + text.utf8ByteSize ≤ Saturating.ceiling := by decide
  obtain ⟨⟨runs, hmem, -, htokens⟩, hjoin, -⟩ := charset_tokens_are_runs m o text {} rfl rfl hfit
  have hlength : tokens.length = 2 := by decide
  exact ⟨⟨rfl, rfl, hfit⟩, ⟨runs, hmem, htokens.length_eq ▸ hlength⟩, hjoin, by decide⟩

end TextAnalysis
