import TextAnalysis.Proofs.CharMap.Writing
import TextAnalysis.Proofs.Text.Trimming
import Mathlib.Data.List.TakeWhile
import Mathlib.Tactic.FinCases

/-!
# Reading written character tables

A table is taken apart in the order in which it is put together: at the ends of its lines, at the
comments, at commas, and at the blanks around entries; then an entry at its arrow, or at the mark of
pairs, and a range at its dots. None of these separators stands in the parts, so every cut is made
where the parts were joined, and what is left are characters, which are read as they were written.

Main statement: `written_table_is_overlay`. A table that is written as such is accepted, and its map
is what its entries list, the later ones over the earlier ones.
-/

set_option autoImplicit false

namespace TextAnalysis.CharMap

open Text (trim Trims)
open Unicode (isWhite)

/-! ## Characters -/

/-- What holds of the first 128 characters one by one holds of all of them. -/
theorem forall_ascii {P : Char → Prop} (h : ∀ code : Fin 128, P (.ofNat code)) {c : Char}
    (hc : c.toNat < 128) : P c := by
  have hcode := h ⟨c.toNat, hc⟩
  rwa [Char.ofNat_toNat] at hcode

/-- Hexadecimal digits are among the first 128 characters. -/
theorem lt_of_hexDigit? {c : Char} {d : Nat} (h : hexDigit? c = some d) : c.toNat < 128 := by
  by_contra hc
  have hval : 128 ≤ c.val.toNat := Nat.le_of_not_lt hc
  have hnine : '9'.val.toNat = 57 := rfl
  have hF : 'F'.val.toNat = 70 := rfl
  have hf : 'f'.val.toNat = 102 := rfl
  simp only [hexDigit?, Char.le_def, UInt32.le_iff_toNat_le] at h
  rw [if_neg (by simp; omega), if_neg (by simp; omega), if_neg (by simp; omega)] at h
  cases h

/-- Hexadecimal digits have the same value in either case. -/
theorem hexDigit?_toLower (c : Char) : hexDigit? c.toLower = hexDigit? c := by
  by_cases hc : c.toNat < 128
  · exact forall_ascii (P := fun c => hexDigit? c.toLower = hexDigit? c) (by decide) hc
  · -- only capital letters change, and all of them lie below
    have hZ : 'Z'.val.toNat = 90 := rfl
    have hcapital : ¬ (c.val ≥ 'A'.val ∧ c.val ≤ 'Z'.val) := by
      rintro ⟨-, hle⟩
      rw [UInt32.le_iff_toNat_le] at hle
      exact hc (by change c.val.toNat < 128; omega)
    have hsame : c.toLower = c := dif_neg hcapital
    rw [hsame]

/-- Hexadecimal digits are plain. -/
theorem isPlain_of_hexDigit? {c : Char} {d : Nat} (h : hexDigit? c = some d) : IsPlain c :=
  forall_ascii (P := fun c => (hexDigit? c).isSome → IsPlain c) (by decide) (lt_of_hexDigit? h)
    (by rw [h]; rfl)

/-- The digits that are printed are read. -/
theorem hexDigit?_digitChar {d : Nat} (h : d < 16) : hexDigit? d.digitChar = some d := by
  have hall : ∀ d : Fin 16, hexDigit? d.val.digitChar = some d.val := by decide
  exact hall ⟨d, h⟩

/-- It does not matter whether digits are written large or small. -/
theorem hexValue_map_toLower (value : Nat) (digits : List Char) :
    hexValue value (digits.map Char.toLower) = hexValue value digits := by
  induction digits generalizing value with
  | nil => rfl
  | cons c rest ih => simp only [List.map_cons, hexValue, hexDigit?_toLower, ih]

/-- Digits are read one part after the other. -/
theorem hexValue_append (value : Nat) (digits digits' : List Char) :
    hexValue value (digits ++ digits') = hexValue value digits >>= (hexValue · digits') := by
  induction digits generalizing value with
  | nil => rfl
  | cons c rest ih =>
    rw [List.cons_append, hexValue, hexValue]
    split
    · rfl
    · split
      · exact ih _
      · rfl

/-- Zeros in front count for nothing. -/
theorem hexValue_replicate_zero (zeros : Nat) : hexValue 0 (List.replicate zeros '0') = .ok 0 := by
  induction zeros with
  | zero => rfl
  | succ zeros ih => exact ih

/-- A numeral of 32 bits is read as its value. -/
theorem hexValue_toDigits {n : Nat} (h : n < 4294967296) :
    hexValue 0 (Nat.toDigits 16 n) = .ok n := by
  induction n using Nat.strongRecOn with
  | _ n ih =>
    by_cases hsmall : n < 16
    · rw [Nat.toDigits_of_lt_base hsmall]
      simp [hexValue, hexDigit?_digitChar hsmall, h]
    · have hvalue : 16 * (n / 16) + n % 16 = n := Nat.div_add_mod n 16
      have hdigit := hexDigit?_digitChar (Nat.mod_lt n (by omega : 0 < 16))
      rw [Nat.toDigits_of_base_le (by omega) (by omega), hexValue_append,
        ih (n / 16) (by omega) (by omega)]
      simp [bind, Except.bind, hexValue, hdigit, hvalue, h]

/-- What has a value consists of digits. -/
theorem isPlain_of_hexValue {value n : Nat} {digits : List Char}
    (h : hexValue value digits = .ok n) : ∀ c ∈ digits, IsPlain c := by
  induction digits generalizing value with
  | nil => simp
  | cons c rest ih =>
    rw [hexValue] at h
    split at h
    · cases h
    · next d hd =>
      split at h
      · simpa using ⟨isPlain_of_hexDigit? hd, ih h⟩
      · cases h

/-- The digits that write a code point are read as the code point. -/
theorem hexValue_of_map_toLower {c : Char} {zeros : Nat} {digits : List Char}
    (h : digits.map Char.toLower = List.replicate zeros '0' ++ Nat.toDigits 16 c.toNat) :
    hexValue 0 digits = .ok c.toNat := by
  have hc : c.toNat < 4294967296 := c.val.toNat_lt
  rw [← hexValue_map_toLower, h, hexValue_append, hexValue_replicate_zero]
  exact hexValue_toDigits hc

/-- Digits have no sign, so they are a numeral. -/
theorem readHexNumeral_eq {digits : List Char} {n : Nat} (hne : digits ≠ [])
    (h : hexValue 0 digits = .ok n) : readHexNumeral digits = .ok n := by
  unfold readHexNumeral
  split
  · exact absurd rfl hne
  · cases h
  · cases h
  · exact h

/-! ### Characters of a table -/

/-- The letter of a code is plain. -/
theorem isPlain_sign {sign : Char} (h : sign = 'U' ∨ sign = 'u') : IsPlain sign := by
  rcases h with rfl | rfl <;> decide

/-- One character is no sign. -/
theorem afterSign?_singleton (c : Char) : afterSign? [c] = none := by
  unfold afterSign?
  split <;> simp_all

/-- A character that is written leaves a text. -/
theorem WritesChar.ne_nil {c : Char} {text : List Char} (h : WritesChar c text) : text ≠ [] := by
  cases h <;> exact List.cons_ne_nil _ _

/-- It is written in plain characters. -/
theorem WritesChar.isPlain {c : Char} {text : List Char} (h : WritesChar c text) :
    ∀ d ∈ text, IsPlain d := by
  cases h with
  | itself hplain => simpa using hplain
  | @code sign zeros digits hsign hdigits =>
    have hplus : IsPlain '+' := by decide
    simpa using ⟨isPlain_sign hsign, hplus, isPlain_of_hexValue (hexValue_of_map_toLower hdigits)⟩

/-- It is read as its code point. -/
theorem WritesChar.readCode {c : Char} {text : List Char} (h : WritesChar c text)
    (entry : List Char) : readCode entry text = .ok c.toNat := by
  cases h with
  | itself hplain => rw [CharMap.readCode, afterSign?_singleton]
  | @code sign zeros digits hsign hdigits =>
    have hne : digits ≠ [] := by
      rintro rfl
      exact Nat.toDigits_ne_nil (List.append_eq_nil_iff.mp hdigits.symm).2
    have hread := readHexNumeral_eq hne (hexValue_of_map_toLower hdigits)
    rcases hsign with rfl | rfl
    · simp [CharMap.readCode, afterSign?, hread]
    · simp [CharMap.readCode, afterSign?, hread]

/-! ## Blanks -/

/-- Nothing is blank. -/
theorem isBlank_nil : IsBlank [] := fun _ hc => absurd hc List.not_mem_nil

/-- The text begins and ends with characters that are not white space. -/
structure Tight (text : List Char) : Prop where
  first : ∃ c rest, text = c :: rest ∧ isWhite c = false
  last : ∃ rest c, text = rest ++ [c] ∧ isWhite c = false

namespace Tight

variable {text first middle last blank blank' : List Char}

/-- A tight text is not empty. -/
theorem ne_nil (h : Tight text) : text ≠ [] := by
  obtain ⟨c, rest, rfl, -⟩ := h.first
  exact List.cons_ne_nil c rest

/-- Whatever stands between two tight texts, the whole is tight. -/
theorem join (h : Tight first) (h' : Tight last) : Tight (first ++ middle ++ last) := by
  obtain ⟨c, rest, rfl, hc⟩ := h.first
  obtain ⟨rest', c', rfl, hc'⟩ := h'.last
  exact ⟨⟨c, rest ++ middle ++ (rest' ++ [c']), rfl, hc⟩,
    ⟨c :: rest ++ middle ++ rest', c', (List.append_assoc _ _ _).symm, hc'⟩⟩

/-- Two tight texts with a mark between them are tight, whatever blanks surround the mark. -/
theorem join_marked (h : Tight first) (h' : Tight last) (a b : Char) :
    Tight (first ++ blank ++ a :: b :: (blank' ++ last)) := by
  have hmiddle : first ++ blank ++ a :: b :: (blank' ++ last) =
      first ++ (blank ++ a :: b :: blank') ++ last := by simp
  rw [hmiddle]
  exact h.join h'

/-- Plain characters are tight. -/
theorem of_isPlain (hne : text ≠ []) (h : ∀ c ∈ text, IsPlain c) : Tight text := by
  refine ⟨?_, ?_⟩
  · obtain ⟨c, rest, rfl⟩ := List.exists_cons_of_ne_nil hne
    exact ⟨c, rest, rfl, (h c (by simp)).1⟩
  · have hlast := h (text.getLast hne) (List.getLast_mem hne)
    exact ⟨text.dropLast, text.getLast hne, (List.dropLast_concat_getLast hne).symm, hlast.1⟩

/-- The blanks around a tight text are trimmed, and nothing of the text is. -/
theorem trim_eq (h : Tight text) (hblank : IsBlank blank) (hblank' : IsBlank blank') :
    trim (blank ++ text ++ blank') = text := by
  have htrims : Trims (blank ++ text ++ blank') text := by
    refine ⟨⟨blank, blank', rfl, fun c hc => (hblank c hc).1, fun c hc => (hblank' c hc).1⟩, ?_, ?_⟩
    · obtain ⟨c, rest, rfl, hc⟩ := h.first
      simpa using hc
    · obtain ⟨rest, c, rfl, hc⟩ := h.last
      simpa using hc
  exact htrims.eq_trim.symm

/-- Blanks behind a tight text are trimmed off, -/
theorem trim_append (h : Tight text) (hblank : IsBlank blank) : trim (text ++ blank) = text :=
  h.trim_eq isBlank_nil hblank

/-- and blanks in front of it. -/
theorem trim_prepend (h : Tight text) (hblank : IsBlank blank) : trim (blank ++ text) = text := by
  have htrim := h.trim_eq hblank isBlank_nil
  rwa [List.append_nil] at htrim

end Tight

/-- Nothing is left of blanks. -/
theorem trim_of_isBlank {blank : List Char} (h : IsBlank blank) : trim blank = [] := by
  have htrims : Trims blank [] :=
    ⟨⟨blank, [], by simp, fun c hc => (h c hc).1, by simp⟩, by simp, by simp⟩
  exact htrims.eq_trim.symm

/-! ## Cuts -/

/-- The characters that stand between the parts of a table. None of them stands for itself. -/
def marks : List Char := [',', '#', '.', '-', '>', '/', '\n']

/-- Marks are not plain. -/
theorem not_isPlain_of_mem_marks {mark : Char} (h : mark ∈ marks) : ¬ IsPlain mark := by
  fin_cases h <;> decide

/-- The only mark that is a blank is the line end. -/
theorem eq_of_isWhite_of_mem_marks {mark : Char} (h : mark ∈ marks) (hwhite : isWhite mark = true) :
    mark = '\n' := by
  fin_cases h <;> revert hwhite <;> decide

/-- Without its first character, a mark is not found. -/
theorem splitAtPair?_of_not_mem {a : Char} (b : Char) {text : List Char} (h : a ∉ text) :
    splitAtPair? a b text = none := by
  fun_induction splitAtPair? a b text with
  | case1 d rest hpair => simp_all
  | case2 c d rest hpair ih =>
    rw [ih (fun hmem => h (List.mem_cons_of_mem c hmem))]
    rfl
  | case3 => rfl

/-- A text is cut where the two characters stand first. -/
theorem splitAtPair?_append {a : Char} (b : Char) {front : List Char} (h : a ∉ front)
    (rest : List Char) : splitAtPair? a b (front ++ a :: b :: rest) = some (front, rest) := by
  induction front with
  | nil => simp [splitAtPair?]
  | cons c front ih =>
    obtain ⟨hc, hfront⟩ := List.ne_and_not_mem_of_not_mem_cons h
    obtain ⟨d, more, hmore⟩ : ∃ d more, front ++ a :: b :: rest = d :: more := by
      cases front <;> exact ⟨_, _, rfl⟩
    rw [List.cons_append, hmore, splitAtPair?, if_neg (by simp [Ne.symm hc]), ← hmore, ih hfront]
    rfl

/-- Without a slash, no halving is found. -/
theorem beforeHalving?_of_not_mem {text : List Char} (h : '/' ∉ text) :
    beforeHalving? text = none := by
  unfold beforeHalving?
  split
  · next rest hrest =>
    have hmem : '/' ∈ text.reverse := by
      rw [hrest]
      simp
    exact absurd (List.mem_reverse.mp hmem) h
  · rfl

/-- A halving is found at the end of an entry. -/
theorem beforeHalving?_append (text : List Char) :
    beforeHalving? (text ++ ['/', '2']) = some text := by
  simp [beforeHalving?]

/-! ## Ranges and entries -/

section

variable {r : CharRange} {e : Entry} {mark : Char} {text blank : List Char}

/-- No mark stands in a written character, -/
theorem WritesChar.not_mem {c : Char} (h : WritesChar c text) (hmark : mark ∈ marks) :
    mark ∉ text :=
  fun hmem => not_isPlain_of_mem_marks hmark (h.isPlain mark hmem)

/-- and none in blanks. -/
theorem IsBlank.not_mem (h : IsBlank blank) (hmark : mark ∈ marks) : mark ∉ blank :=
  fun hmem => (h mark hmem).2 (eq_of_isWhite_of_mem_marks hmark (h mark hmem).1)

/-- Where two parts are joined by two marks, they are cut there, each with its blanks. -/
theorem splitAtPair?_joined {a : Char} (b : Char) {first blank : List Char} (hmark : a ∈ marks)
    (hfirst : a ∉ first) (hblank : IsBlank blank) (rest : List Char) :
    splitAtPair? a b (first ++ blank ++ a :: b :: rest) = some (first ++ blank, rest) :=
  splitAtPair?_append b (List.not_mem_append hfirst (hblank.not_mem hmark)) rest

/-- A written character is tight, -/
theorem WritesChar.tight {c : Char} (h : WritesChar c text) : Tight text :=
  .of_isPlain h.ne_nil h.isPlain

/-- and so is a written range. -/
theorem WritesRange.tight (h : WritesRange r text) : Tight text := by
  cases h with
  | one hone h => exact h.tight
  | span hfirst hlast hblank hblank' =>
    exact hfirst.tight.join_marked hlast.tight '.' '.'

/-- A range is written without the marks of entries and tables. -/
theorem WritesRange.not_mem (h : WritesRange r text) (hmark : mark ∈ marks) (hdot : mark ≠ '.') :
    mark ∉ text := by
  cases h with
  | one hone h => exact h.not_mem hmark
  | span hfirst hlast hblank hblank' =>
    simp only [List.mem_append, List.mem_cons, not_or]
    exact ⟨⟨hfirst.not_mem hmark, hblank.not_mem hmark⟩, hdot, hdot, hblank'.not_mem hmark,
      hlast.not_mem hmark⟩

/-- A written range is read as its two ends. -/
theorem WritesRange.readRange (h : WritesRange r text) (entry : List Char) :
    readRange entry text = .ok (r.first.toNat, r.last.toNat) := by
  have hle := Nat.not_lt_of_le r.first_le_last
  cases h with
  | one hone h =>
    have hcut := splitAtPair?_of_not_mem '.' (h.not_mem (by decide : '.' ∈ marks))
    rw [← hone] at hle ⊢
    simp only [CharMap.readRange, hcut, h.readCode entry]
    exact if_neg hle
  | @span first last blank blank' hfirst hlast hblank hblank' =>
    have hdot : '.' ∈ marks := by decide
    have hcut := splitAtPair?_joined '.' hdot (hfirst.not_mem hdot) hblank (blank' ++ last)
    simp only [CharMap.readRange, hcut, hfirst.tight.trim_append hblank,
      hlast.tight.trim_prepend hblank', hfirst.readCode entry, hlast.readCode entry]
    exact if_neg hle

/-- A written entry is tight. -/
theorem WritesEntry.tight (h : WritesEntry e text) : Tight text := by
  cases h with
  | same h => exact h.tight
  | onto hleft hright hblank hblank' =>
    exact hleft.tight.join_marked hright.tight '-' '>'
  | pairs h hblank =>
    have hmark : Tight ['/', '2'] := ⟨⟨'/', ['2'], rfl, by decide⟩, ⟨['/'], '2', rfl, by decide⟩⟩
    exact h.tight.join hmark

/-- An entry is written without the marks of tables. -/
theorem WritesEntry.not_mem (h : WritesEntry e text) (hmark : mark ∈ [',', '#', '\n']) :
    mark ∉ text := by
  have hmarks : mark ∈ marks ∧ mark ∉ ['.', '-', '>', '/', '2'] := by
    fin_cases hmark <;> decide
  obtain ⟨hmarks, hother⟩ := hmarks
  simp only [List.mem_cons, not_or] at hother
  obtain ⟨hdot, hdash, harrow, hslash, htwo, -⟩ := hother
  cases h with
  | same h => exact h.not_mem hmarks hdot
  | onto hleft hright hblank hblank' =>
    simp only [List.mem_append, List.mem_cons, not_or]
    exact ⟨⟨hleft.not_mem hmarks hdot, hblank.not_mem hmarks⟩, hdash, harrow,
      hblank'.not_mem hmarks, hright.not_mem hmarks hdot⟩
  | pairs h hblank =>
    simp only [List.mem_append, List.mem_cons, not_or]
    exact ⟨⟨h.not_mem hmarks hdot, hblank.not_mem hmarks⟩, hslash, htwo, List.not_mem_nil⟩

/-- A written entry is read as its listing. -/
theorem WritesEntry.read (h : WritesEntry e text) : Listing.read text = .ok e.listing := by
  have hdash : '-' ∈ marks := by decide
  have hslash : '/' ∈ marks := by decide
  cases h with
  | same h =>
    -- a range alone has neither an arrow nor the mark of pairs
    have hcut := splitAtPair?_of_not_mem '>' (h.not_mem hdash (by decide))
    have hhalving := beforeHalving?_of_not_mem (h.not_mem hslash (by decide))
    simp only [Listing.read, hcut, hhalving, h.readRange text]
    rfl
  | @onto source target sizes left right blank blank' hleft hright hblank hblank' =>
    have hnot := hleft.not_mem hdash (by decide)
    have hcut := splitAtPair?_joined '>' hdash hnot hblank (blank' ++ right)
    have hsizes : source.last.toNat - source.first.toNat =
        target.last.toNat - target.first.toNat := Nat.succ_inj.mp sizes
    simp only [Listing.read, hcut, hleft.tight.trim_append hblank,
      hright.tight.trim_prepend hblank', hleft.readRange, hright.readRange]
    exact if_pos hsizes
  | @pairs r even range blank h hblank =>
    -- arrows are looked for first, and there is none
    have hnot : '-' ∉ range ++ blank ++ ['/', '2'] := by
      simpa using ⟨h.not_mem hdash (by decide), hblank.not_mem hdash⟩
    have hcut := splitAtPair?_of_not_mem '>' hnot
    simp only [Listing.read, hcut, beforeHalving?_append, h.tight.trim_append hblank, h.readRange]
    rfl

end

/-! ## Lines -/

/-- The entry at a place, if something stands there. -/
def placeEntries (place : List Char) : List (List Char) :=
  [trim place].filter fun entry => !entry.isEmpty

/-- The entries of a line. -/
def lineEntries (line : List Char) : List (List Char) :=
  ((line.takeWhile (· ≠ '#')).splitOn ',').flatMap placeEntries

/-- The entries of a table are those of its lines. -/
theorem tableEntries_eq (table : List Char) :
    tableEntries table = (table.splitOn '\n').flatMap lineEntries := by
  rw [tableEntries, List.map_eq_flatMap, List.filter_flatMap, List.flatMap_assoc, List.flatMap_map]
  rfl

section

variable {separator mark : Char} {part : List Entry → List Char → Prop} {es : List Entry}
  {text place line : List Char}

/-- What stands in no part, and is not the separator, does not stand in the joined parts. -/
theorem Joined.not_mem (h : Joined separator part es text)
    (hpart : ∀ {es text}, part es text → mark ∉ text) (hmark : mark ≠ separator) :
    mark ∉ text := by
  induction h with
  | last h => exact hpart h
  | cons h hrest ih =>
    exact List.not_mem_append (hpart h) (List.not_mem_cons_of_ne_of_not_mem hmark ih)

/-- Joined parts are cut where they were joined, so that what is read from each part is read from
the whole. -/
theorem Joined.forall₂ {entries : List Char → List (List Char)}
    (h : Joined separator part es text) (hpart : ∀ {es text}, part es text → separator ∉ text)
    (hentries : ∀ {es text}, part es text → List.Forall₂ WritesEntry es (entries text)) :
    List.Forall₂ WritesEntry es ((text.splitOn separator).flatMap entries) := by
  induction h with
  | last h =>
    rw [List.splitOn_eq_singleton (hpart h), List.flatMap_singleton]
    exact hentries h
  | cons h hrest ih =>
    rw [List.splitOn_append_cons_self_of_not_mem (hpart h), List.flatMap_cons]
    exact List.rel_append (hentries h) ih

/-- Where entries stand, no comma, comment or line end does. -/
theorem WritesPlace.not_mem (h : WritesPlace es place) (hmark : mark ∈ [',', '#', '\n']) :
    mark ∉ place := by
  have hmarks : mark ∈ marks := by
    fin_cases hmark <;> decide
  cases h with
  | nothing hblank => exact hblank.not_mem hmarks
  | entry h hblank hblank' =>
    exact List.not_mem_append (List.not_mem_append (hblank.not_mem hmarks) (h.not_mem hmark))
      (hblank'.not_mem hmarks)

/-- Behind their commas, entries stand as they are written. -/
theorem WritesPlace.forall₂ (h : WritesPlace es place) :
    List.Forall₂ WritesEntry es (placeEntries place) := by
  cases h with
  | nothing hblank =>
    rw [placeEntries, trim_of_isBlank hblank]
    exact .nil
  | @entry e text blank blank' h hblank hblank' =>
    have hkept : placeEntries (blank ++ text ++ blank') = [text] := by
      rw [placeEntries, h.tight.trim_eq hblank hblank']
      simp [h.tight.ne_nil]
    rw [hkept]
    exact .cons h .nil

/-- A written line has no line end. -/
theorem WritesLine.not_mem (h : WritesLine es line) : '\n' ∉ line := by
  cases h with
  | plain h => exact h.not_mem (·.not_mem (by decide)) (by decide)
  | commented h hcomment =>
    exact List.not_mem_append (h.not_mem (·.not_mem (by decide)) (by decide))
      (List.not_mem_cons_of_ne_of_not_mem (by decide) hcomment)

/-- The entries of a written line stand in its text as they are written. -/
theorem WritesLine.forall₂ (h : WritesLine es line) :
    List.Forall₂ WritesEntry es (lineEntries line) := by
  have hread {text : List Char} (hplaces : Joined ',' WritesPlace es text) :
      List.Forall₂ WritesEntry es ((text.splitOn ',').flatMap placeEntries) :=
    hplaces.forall₂ (·.not_mem (by decide)) (·.forall₂)
  have hkept {text : List Char} (hplaces : Joined ',' WritesPlace es text) :
      ∀ c ∈ text, decide (c ≠ '#') = true := by
    intro c hc
    have hnot : '#' ∉ text := hplaces.not_mem (·.not_mem (by decide)) (by decide)
    exact decide_eq_true fun heq => hnot (heq ▸ hc)
  cases h with
  | plain h =>
    rw [lineEntries, List.takeWhile_eq_self_iff.mpr (hkept h)]
    exact hread h
  | commented h hcomment =>
    rw [lineEntries, List.takeWhile_append_of_pos (hkept h), List.takeWhile_cons_of_neg (by simp),
      List.append_nil]
    exact hread h

/-- The entries of a table are found in it, each as it was written. -/
theorem WritesTable.forall₂ (h : WritesTable es text) :
    List.Forall₂ WritesEntry es (tableEntries text) := by
  rw [tableEntries_eq]
  exact Joined.forall₂ h (·.not_mem) (·.forall₂)

end

/-! ## Tables -/

/-- Written entries are read one after the other. -/
theorem exists_foldlM_readEntry {es : List Entry} {entries : List (List Char)}
    (h : List.Forall₂ WritesEntry es entries) (table : Std.ExtTreeMap Char String) :
    ∃ table', entries.foldlM readEntry table = .ok table' := by
  induction h generalizing table with
  | nil => exact ⟨table, rfl⟩
  | @cons e entry es entries he hrest ih =>
    obtain ⟨table₁, hadd⟩ := e.exists_addTo entry table
    obtain ⟨table', hfold⟩ := ih table₁
    refine ⟨table', ?_⟩
    rw [List.foldlM_cons, readEntry_eq, he.read]
    change (e.listing.addTo entry table >>= _) = _
    rw [hadd]
    exact hfold

/-- Reading finds out what the entries mean. -/
theorem eq_map_listing {es : List Entry} {entries : List (List Char)} {ls : List Listing}
    (h : List.Forall₂ WritesEntry es entries)
    (hls : List.Forall₂ (fun entry l => Listing.read entry = .ok l) entries ls) :
    ls = es.map Entry.listing := by
  induction h generalizing ls with
  | nil =>
    cases hls
    rfl
  | @cons e entry es entries he hrest ih =>
    obtain @⟨⟩ | ⟨hl, hls⟩ := hls
    have hsame : e.listing = _ := Except.ok.inj (he.read.symm.trans hl)
    rw [List.map_cons, ih hls, hsame]

/-- The last image among two rows of listings is that in the second where there is one. -/
theorem lastImage?_append (ls ls' : List Listing) (c : Char) :
    lastImage? (ls ++ ls') c = (lastImage? ls' c).or (lastImage? ls c) := by
  rw [lastImage?, List.reverse_append, List.findSome?_append]
  rfl

/-- Entries that do not list a character give it no image. -/
theorem lastImage?_map_listing_eq_none {es : List Entry} {c : Char}
    (h : ∀ e ∈ es, c ∉ e.source) : lastImage? (es.map Entry.listing) c = none := by
  rw [lastImage?_eq_none_iff]
  intro l hl
  obtain ⟨e, he, rfl⟩ := List.mem_map.mp hl
  exact Entry.image?_listing_of_not_mem (h e he)

/-- A table that is written as such is accepted. Every character that none of its entries lists is a
break, and every other one is mapped to what the last entry that lists it maps it to. -/
theorem written_table_is_overlay {es : List Entry} {text : String}
    (h : WritesTable es text.toList) :
    ∃ m, ofTable text = .ok m ∧
      (∀ c, (∀ e ∈ es, c ∉ e.source) → m.isBreak c = true) ∧
      ∀ before e after c, es = before ++ e :: after → c ∈ e.source →
        (∀ e' ∈ after, c ∉ e'.source) →
          m.get? c = some (e.target c).toString ∧ m.isBreak c = false := by
  obtain ⟨table, htable⟩ := exists_foldlM_readEntry h.forall₂ ∅
  have hm : ofTable text = .ok { table, unmapped := .split } := by
    rw [ofTable, htable]
    rfl
  obtain ⟨ls, hls, hget⟩ := get?_ofTable hm
  obtain rfl := eq_map_listing h.forall₂ hls
  refine ⟨_, hm, ?_, ?_⟩
  · intro c hc
    rw [(hget c).2, lastImage?_map_listing_eq_none hc]
    rfl
  · intro before e after c hes hc hafter
    have himage : lastImage? (es.map Entry.listing) c = some (e.target c) := by
      rw [hes, List.map_append, List.map_cons, lastImage?_append, lastImage?_cons,
        lastImage?_map_listing_eq_none hafter, Entry.image?_listing_of_mem hc]
      rfl
    rw [(hget c).1, (hget c).2, himage]
    exact ⟨rfl, rfl⟩

/-- The entry of a later line lies over that of an earlier one, and a character that stands only
behind an arrow is a break. -/
theorem written_table_is_overlay_letters :
    ∃ es m, WritesTable es "A..C -> U+061..u+0063, # letters\r\nU+100..U+103/2,B".toList ∧
      ofTable "A..C -> U+061..u+0063, # letters\r\nU+100..U+103/2,B" = .ok m ∧
      m.get? 'A' = some "a" ∧ m.get? 'B' = some "B" ∧ m.get? 'Ā' = some "ā" ∧
      m.isBreak 'b' = true := by
  let capital : CharRange :=
    ⟨'A', 'C', by decide, fun _ _ hle => .inl (Nat.lt_of_le_of_lt hle (by decide))⟩
  let small : CharRange :=
    ⟨'a', 'c', by decide, fun _ _ hle => .inl (Nat.lt_of_le_of_lt hle (by decide))⟩
  let long : CharRange :=
    ⟨'Ā', 'ă', by decide, fun _ _ hle => .inl (Nat.lt_of_le_of_lt hle (by decide))⟩
  let middle : CharRange :=
    ⟨'B', 'B', by decide, fun _ _ hle => .inl (Nat.lt_of_le_of_lt hle (by decide))⟩
  have hspace : IsBlank [' '] := by
    intro c hc
    rw [List.mem_singleton.mp hc]
    decide
  have ha : WritesChar 'a' ['U', '+', '0', '6', '1'] :=
    .code (.inl rfl) (by decide : _ = List.replicate 1 '0' ++ _)
  have hc : WritesChar 'c' ['u', '+', '0', '0', '6', '3'] :=
    .code (.inr rfl) (by decide : _ = List.replicate 2 '0' ++ _)
  have hlong : WritesChar 'Ā' ['U', '+', '1', '0', '0'] :=
    .code (.inl rfl) (by decide : _ = List.replicate 0 '0' ++ _)
  have hlong' : WritesChar 'ă' ['U', '+', '1', '0', '3'] :=
    .code (.inl rfl) (by decide : _ = List.replicate 0 '0' ++ _)
  have hcapital : WritesRange capital _ :=
    .span (.itself (by decide)) (.itself (by decide)) isBlank_nil isBlank_nil
  have hsmall : WritesRange small _ := .span ha hc isBlank_nil isBlank_nil
  have hletters : WritesEntry (.onto capital small rfl) _ := .onto hcapital hsmall hspace hspace
  have hpairs : WritesEntry (.pairs long (by decide)) _ :=
    .pairs (.span hlong hlong' isBlank_nil isBlank_nil) isBlank_nil
  have hmiddle : WritesEntry (.same middle) _ := .same (.one rfl (.itself (by decide)))
  have hfirst : WritesLine _ _ :=
    .commented (.cons (.entry hletters isBlank_nil isBlank_nil) (.last (.nothing hspace)))
      (by decide : '\n' ∉ " letters\r".toList)
  have hsecond : WritesLine _ _ :=
    .plain (.cons (.entry hpairs isBlank_nil isBlank_nil)
      (.last (.entry hmiddle isBlank_nil isBlank_nil)))
  have htable : WritesTable _
      "A..C -> U+061..u+0063, # letters\r\nU+100..U+103/2,B".toList :=
    .cons hfirst (.last hsecond)
  obtain ⟨m, hm, hbreak, hget⟩ := written_table_is_overlay htable
  have hA := hget [] _ _ 'A' rfl (by decide) (by decide)
  have hB := hget [_, _] _ [] 'B' rfl (by decide) (by decide)
  have hpair := hget [_] _ _ 'Ā' rfl (by decide) (by decide)
  have hsecond : Entry.target (.pairs long (by decide)) 'Ā' = 'ā' := by decide
  rw [hsecond] at hpair
  exact ⟨_, m, htable, hm, hA.1, hB.1, hpair.1, hbreak 'b' (by decide)⟩

end TextAnalysis.CharMap
