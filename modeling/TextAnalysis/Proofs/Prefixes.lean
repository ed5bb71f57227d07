import Mathlib.Data.List.DropRight
import TextAnalysis.Proofs.Repeating

/-!
# Paths and their prefixes

The segments of a path are the runs of characters other than the delimiter. Whatever the delimiter
is, the pattern that is written for it reads as one or more characters of this kind: behind the
escape, no character has a meaning of its own in a bracket. The token of a segment is the text up to
its end, so tokens are the beginnings of the text that end where a segment does.

Main statement: `path_tokens_are_prefixes`, the tokens of a path for every delimiter.
-/

set_option autoImplicit false

namespace TextAnalysis

open Text (Span byteLength)

/-! ## The pattern for segments -/

namespace Pattern

namespace CharSet

/-- All characters but one. -/
def allBut (c : Char) : CharSet := compl (single c)

/-- The set of all but one character holds exactly the others, -/
theorem mem_allBut {c d : Char} : (allBut c).mem d = true ↔ d ≠ c := by
  simp [allBut, mem_single]

/-- and leaves out exactly this one. -/
theorem mem_allBut_eq_false {c d : Char} : (allBut c).mem d = false ↔ d = c := by
  simp [allBut, mem_single]

end CharSet

/-- Without flags, nothing is skipped. -/
theorem skip_default (text : List Char) : Flags.skip {} text = text := rfl

/-- A character is written behind a backslash, or it is none of those that have a meaning. -/
theorem escape_cases (c : Char) :
    (∃ rest, escape c = '\\' :: rest) ∨ (escape c = [c] ∧ ∀ d ∈ metaChars, c ≠ d) := by
  unfold escape
  split
  · exact .inl ⟨[c], rfl⟩
  · next hplain =>
    refine .inr ⟨rfl, ?_⟩
    rintro d hd rfl
    exact hplain (List.contains_iff_mem.mpr hd)

/-- Characters with a meaning in patterns are not digits. -/
theorem isDigit_of_mem_metaChars {c : Char} (h : c ∈ metaChars) : c.isDigit = false := by
  have hall : (metaChars.all fun c => !c.isDigit) = true := rfl
  simpa using List.all_eq_true.mp hall c h

/-- What is written for a character is read as the character. -/
theorem readClassAtom_escape (f : Flags) (c : Char) (rest : List Char) :
    readClassAtom f (escape c ++ rest) = .ok (.char c, rest) := by
  unfold escape
  split
  · next hmeta =>
    have hdigit := isDigit_of_mem_metaChars (List.contains_iff_mem.mp hmeta)
    have hescapable : isEscapable c = true := by rw [isEscapable, hmeta, Bool.true_or]
    simp [readClassAtom, readEscape, hdigit, hescapable]
  · next hplain =>
    have hslash : c ≠ '\\' := by
      rintro rfl
      exact hplain (by decide)
    rw [List.singleton_append, readClassAtom]
    exact hslash

/-- Behind the circumflex nothing is taken for a leading dash or bracket. -/
theorem openBracket_escape (c : Char) (rest : List Char) :
    openBracket {} ('^' :: (escape c ++ rest)) = .ok (⟨true, none, []⟩, escape c ++ rest) := by
  obtain ⟨more, h⟩ | ⟨h, hplain⟩ := escape_cases c
  · rw [h]
    simp [openBracket, skip_default, readDashes]
  · have hdash : c ≠ '-' := hplain _ (by decide)
    have hbracket : c ≠ ']' := hplain _ (by decide)
    rw [h]
    simp [openBracket, skip_default, readDashes, hdash, hbracket]

/-- A bracket that closes is the class. -/
theorem readClass_bracket {b : Bracket} {s : CharSet} (hs : b.close {} = .ok s) (rest : List Char)
    (fuel : Nat) : readClass {} [] b (fuel + 1) (']' :: rest) = .ok (s, rest) := by
  rw [readClass]
  simp only [skip_default, hs]
  rfl

/-- The bracket holds the character only, and its complement is meant. -/
theorem readClass_escape (c : Char) (rest : List Char) (fuel : Nat) :
    readClass {} [] ⟨true, none, []⟩ (fuel + 2) (escape c ++ ']' :: rest) =
      .ok (.allBut c, rest) := by
  have hitem : readClassItem {} (escape c ++ ']' :: rest) = .ok (.single c, ']' :: rest) := by
    rw [readClassItem, readClassAtom_escape]
    rfl
  have hclose : readClass {} [] (Bracket.push ⟨true, none, []⟩ (.single c)) (fuel + 1)
      (']' :: rest) = .ok (.allBut c, rest) :=
    readClass_bracket rfl rest fuel
  obtain ⟨more, h⟩ | ⟨h, hplain⟩ := escape_cases c
  · rw [h, List.cons_append] at hitem ⊢
    rw [readClass, skip_default]
    show (readClassItem {} _ >>= _) = _
    rw [hitem]
    exact hclose
  · rw [h, List.singleton_append] at hitem ⊢
    rw [readClass, skip_default]
    -- the characters that would start something else in a bracket are all written with a backslash
    split
    case h_1 heq => cases heq
    case h_7 =>
      rw [hitem]
      exact hclose
    all_goals
      next heq => exact absurd (List.cons.inj heq).1 (hplain _ (by decide))

/-- The pattern for segments reads as one or more characters other than the delimiter. -/
theorem readPattern_segmentsBetween (delimiter : Char) :
    readPattern (Tokenizer.segmentsBetween delimiter) =
      .ok (atLeastOne (.allBut delimiter)) := by
  have hopen := openBracket_escape delimiter [']', '+']
  have hclass := readClass_escape delimiter ['+'] ((escape delimiter).length + 1)
  rw [readPattern, Tokenizer.segmentsBetween, String.toList_ofList]
  simp only [List.length_cons, List.length_append, List.length_nil]
  rw [readItems, skip_default]
  show (openBracket {} _ >>= _) = _
  rw [hopen]
  show (readClass {} [] _ ((escape delimiter ++ [']', '+']).length + 1) _ >>= _) = _
  rw [List.length_append]
  show (readClass {} [] _ ((escape delimiter).length + 3) _ >>= _) = _
  rw [hclass]
  rfl

end Pattern

namespace Tokenizer

/-- The tokenizer for paths with a delimiter. -/
def ofDelimiter (delimiter : Char) : Tokenizer :=
  .path ⟨segmentsBetween delimiter, Pattern.atLeastOne (.allBut delimiter),
    Pattern.readPattern_segmentsBetween delimiter⟩

/-- The tokenizer for paths can be made for every delimiter. -/
theorem pathsWith_eq_ok (delimiter : Char) : pathsWith delimiter = .ok (ofDelimiter delimiter) := by
  rw [pathsWith, ofSegments, Pattern.ofSource_eq_ok (Pattern.readPattern_segmentsBetween delimiter)]
  rfl

/-- Paths are delimited by slashes unless said otherwise. -/
theorem paths_eq_pathsWith : paths = pathsWith '/' := rfl

end Tokenizer

/-! ## Ends of segments -/

/-- A beginning of a text that ends where a segment between delimiters does: the text has ended
there, or goes on with a delimiter. -/
structure EndsSegment (delimiter : Char) (text p : List Char) : Prop where
  nonempty : p ≠ []
  begins : p <+: text
  last : p.getLast? ≠ some delimiter
  next : p = text ∨ p ++ [delimiter] <+: text

namespace EndsSegment

open Pattern (CharSet)

variable {delimiter : Char} {text p : List Char}

/-- A run between delimiters ends a segment. -/
theorem of_isRun {s : Span text} (h : s.IsRun (CharSet.allBut delimiter).mem) :
    EndsSegment delimiter text (s.before ++ s.inside) := by
  refine ⟨List.append_ne_nil_of_right_ne_nil _ h.nonempty, ⟨s.after, s.parts⟩, ?_, ?_⟩
  · rw [List.getLast?_append_of_ne_nil _ h.nonempty]
    intro hlast
    exact CharSet.mem_allBut.mp (h.inside _ (List.mem_of_getLast? hlast)) rfl
  · cases hafter : s.after with
    | nil => exact .inl (by simpa [hafter] using s.parts)
    | cons c rest =>
      have hc : c = delimiter := CharSet.mem_allBut_eq_false.mp (h.after c (by simp [hafter]))
      exact .inr ⟨rest, by simpa [hafter, hc] using s.parts⟩

/-- The segment is what such a beginning holds behind its last delimiter. -/
theorem exists_isRun (h : EndsSegment delimiter text p) :
    ∃ s : Span text, s.IsRun (CharSet.allBut delimiter).mem ∧ s.before ++ s.inside = p := by
  obtain ⟨after, hafter⟩ := h.begins
  have hp : p.rdropWhile (CharSet.allBut delimiter).mem ++
      p.rtakeWhile (CharSet.allBut delimiter).mem = p := List.rdropWhile_append_rtakeWhile
  refine ⟨⟨_, _, after, (congrArg (· ++ after) hp).trans hafter⟩, ⟨?_, ?_, ?_, ?_⟩, hp⟩
  · rw [Ne, List.rtakeWhile_eq_nil_iff]
    intro hall
    refine hall h.nonempty (CharSet.mem_allBut.mpr fun hlast => h.last ?_)
    rw [List.getLast?_eq_getLast_of_ne_nil h.nonempty, hlast]
  · exact fun c hc => List.mem_rtakeWhile_imp hc
  · intro c hc
    obtain ⟨hne, rfl⟩ := List.mem_getLast?_eq_getLast hc
    exact Bool.eq_false_iff.mpr (List.rdropWhile_last_not _ _ hne)
  · intro c hc
    refine CharSet.mem_allBut_eq_false.mpr ?_
    rcases h.next with rfl | ⟨rest, hnext⟩
    · have hnil : after = [] := List.append_right_eq_self.mp hafter
      simp [hnil] at hc
    · rw [List.append_assoc, ← hafter] at hnext
      have hparts := List.append_cancel_left hnext
      simpa [← hparts, eq_comm] using hc

end EndsSegment

/-! ## Tokens of paths -/

/-- The tokens of pieces hold their texts. -/
theorem Piece.map_text_token (o : Options) (pieces : List Piece) :
    (pieces.mapIdx (token o)).map Token.text = pieces.map fun p => String.ofList p.text := by
  refine List.ext_getElem (by simp) fun k _ _ => ?_
  rw [List.getElem_map, List.getElem_mapIdx, List.getElem_map, text_token]

/-- The piece from the start of a text to the end of a span. -/
def Piece.upTo {text : List Char} (s : Span text) : Piece := ⟨s.before ++ s.inside, 0, s.last⟩

/-- The pieces up to the matches of a pattern reach up to the spans that its cuts have found. -/
theorem Piece.segmentEnds_of_finds {text before : List Char} {cuts : List Pattern.Cut}
    {found : List (Span text)} (h : Pattern.Cuts.Finds before cuts found) :
    segmentEnds before.reverse (byteLength before) cuts = found.map upTo := by
  induction h with
  | nil => rfl
  | cons hbefore hinside hrest ih =>
    rename_i before c cuts s found
    have hupTo : c.found.reverse ++ (c.skipped.reverse ++ before.reverse) =
        (s.before ++ s.inside).reverse := by
      simp [hbefore, hinside]
    have hlast : byteLength before + byteLength c.skipped + byteLength c.found = s.last := by
      simp [Span.last, hbefore, hinside, Nat.add_assoc]
    rw [segmentEnds, hupTo, hlast, List.map_cons]
    exact congrArg₂ List.cons (by rw [List.reverse_reverse]; rfl) ih

namespace Text.Span

variable {text : List Char}

/-- The text up to a span that begins behind another one is longer than the text up to the end of
that one. -/
theorem length_lt_of_last_lt_first {s s' : Span text} (h : s.last < s'.first) :
    (s.before ++ s.inside).length < (s'.before ++ s'.inside).length := by
  refine Nat.lt_of_not_le fun hle => ?_
  have hbegins : s'.before ++ s'.inside <+: s.before ++ s.inside :=
    List.prefix_of_prefix_length_le ⟨s'.after, s'.parts⟩ ⟨s.after, s.parts⟩ hle
  obtain ⟨between, hbetween⟩ := hbegins
  have hlast : s.last = s'.last + byteLength between := by
    rw [last, last, ← hbetween, byteLength_append]
  have horder := s'.first_le_last
  omega

end Text.Span

namespace Tokenizer

variable (delimiter : Char)

/-- The pieces of a path reach up to the ends of its segments, and an empty text has none. -/
theorem cut_ofDelimiter (text : String) :
    ∃ runs : List (Span text.toList),
      (ofDelimiter delimiter).cut true text = runs.map Piece.upTo ∧
        Span.RunsFrom (Pattern.CharSet.allBut delimiter).mem text.toList 0 runs := by
  obtain ⟨runs, hfinds, hruns⟩ :=
    Pattern.cuts_atLeastOne (Pattern.CharSet.allBut delimiter) text.toList
  have hpieces : (ofDelimiter delimiter).pieces text.toList = runs.map Piece.upTo :=
    Piece.segmentEnds_of_finds hfinds
  exact ⟨runs, (cut_true rfl text).trans hpieces, hruns⟩

end Tokenizer

/-- The tokens of a path are the beginnings of the text that end where a segment does, each once and
the shorter ones first, whatever the delimiter is; and all of them begin where the text does. -/
theorem path_tokens_are_prefixes (delimiter : Char) :
    ∃ t : Tokenizer,
      Tokenizer.pathsWith delimiter = .ok t ∧
      (delimiter = '/' → Tokenizer.paths = .ok t) ∧
      ∀ (o : Options) (text : String) (w : Workspace),
        o.tokenize = true → o.firstOffset ≤ Saturating.ceiling →
        let tokens := ((t.tokenize o text).drain w).1
        tokens.Pairwise (fun t t' => t.text.length < t'.text.length) ∧
        (∀ p : String,
          p ∈ tokens.map Token.text ↔ EndsSegment delimiter text.toList p.toList) ∧
        ∀ t ∈ tokens, t.startOffset = if o.offsets then some o.firstOffset else none := by
  refine ⟨.ofDelimiter delimiter, Tokenizer.pathsWith_eq_ok delimiter, ?_, ?_⟩
  · rintro rfl
    rw [Tokenizer.paths_eq_pathsWith]
    exact Tokenizer.pathsWith_eq_ok '/'
  intro o text w htokenize hfit tokens
  obtain ⟨runs, hcut, hruns⟩ := Tokenizer.cut_ofDelimiter delimiter text
  have htokens : tokens = (runs.map Piece.upTo).mapIdx (Piece.token o) := by
    rw [← hcut, ← htokenize]
    exact Tokenizer.drain_tokenize _ o text w
  have htexts : tokens.map Token.text = runs.map fun s => String.ofList (s.before ++ s.inside) := by
    rw [htokens, Piece.map_text_token, List.map_map]
    rfl
  refine ⟨?_, fun p => ?_, fun t ht => ?_⟩
  · have hlengths : (tokens.map Token.text).Pairwise fun p p' => p.length < p'.length := by
      rw [htexts, List.pairwise_map]
      refine hruns.ordered.imp fun h => ?_
      rw [String.length_ofList, String.length_ofList]
      exact Text.Span.length_lt_of_last_lt_first h
    rwa [List.pairwise_map] at hlengths
  · rw [htexts, List.mem_map]
    constructor
    · rintro ⟨s, hs, rfl⟩
      rw [String.toList_ofList]
      exact .of_isRun ((hruns.mem_iff s).mp hs).1
    · intro hp
      obtain ⟨s, hs, hbegins⟩ := hp.exists_isRun
      refine ⟨s, (hruns.mem_iff s).mpr ⟨hs, Nat.zero_le _⟩, ?_⟩
      rw [hbegins, String.ofList_toList]
  · rw [htokens] at ht
    obtain ⟨k, hk, rfl⟩ := List.mem_mapIdx.mp ht
    rw [List.getElem_map, Piece.token, Piece.apply_update]
    dsimp only [Piece.upTo]
    rw [Saturating.add_zero _ hfit]
    rfl

/-- A path with a slash at both ends and two in a row. -/
theorem path_tokens_are_prefixes_slash :
    ∃ t : Tokenizer,
      Tokenizer.pathsWith '/' = .ok t ∧ Tokenizer.paths = .ok t ∧
      let texts := ((t.tokenize {} "/usr//bin/").drain {}).1.map Token.text
      "/usr" ∈ texts ∧ "/usr//bin" ∈ texts ∧ "/usr/" ∉ texts ∧ "/usr//bin/" ∉ texts := by
  obtain ⟨t, hwith, hpaths, htokens⟩ := path_tokens_are_prefixes '/'
  obtain ⟨-, hmem, -⟩ := htokens {} "/usr//bin/" {} rfl (by decide)
  refine ⟨t, hwith, hpaths rfl, (hmem _).mpr ?_, (hmem _).mpr ?_, fun h => ?_, fun h => ?_⟩
  · exact ⟨by decide, by decide, by decide, .inr (by decide)⟩
  · exact ⟨by decide, by decide, by decide, .inr (by decide)⟩
  · exact ((hmem _).mp h).last rfl
  · exact ((hmem _).mp h).last rfl

end TextAnalysis
