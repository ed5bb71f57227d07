import Mathlib.Data.List.Chain
import Mathlib.Data.List.DropRight
import TextAnalysis.Proofs.CharMap.Reading

/-!
# Spelled entries

Which texts spell an entry of a character table: characters, code points and ranges of them, with no
regard to whether they make sense (`Spells`). A lenient reader passes over a sign in front of
digits; and this is how entries are read. What a reader accepts can be spelled
(`exists_spells_of_read`), and it is read in the only way in which it can be (`Spells.eq_listing`):
ranges hold no arrow and no mark of pairs, since their marks are kept apart, and where dots meet too
early nothing is left to read.
-/

set_option autoImplicit false

namespace TextAnalysis.CharMap

open Text (trim)
open Unicode (isWhite)

/-! ## What entries look like -/

/-- A range of code points, by its ends. -/
structure CodeRange where
  first : Nat
  last : Nat

/-- What an entry is made of. -/
inductive Shape where
  | same (r : CodeRange)
  | onto (source target : CodeRange)
  | pairs (r : CodeRange)

namespace Shape

/-- The ranges that the entry is written with. -/
def ranges : Shape → List CodeRange
  | same r => [r]
  | onto source target => [source, target]
  | pairs r => [r]

/-- What reading the entry finds out. -/
def listing : Shape → Listing
  | same r => ⟨r.first, r.last, .shift r.first⟩
  | onto source target => ⟨source.first, source.last, .shift target.first⟩
  | pairs r => ⟨r.first, r.last, .pairs⟩

end Shape

/-- The number that hexadecimal digits stand for. -/
def hexNumber? (digits : List Char) : Option Nat :=
  (digits.mapM hexDigit?).map fun values => values.foldl (fun n d => 16 * n + d) 0

/-- The text spells a code point: a character stands for itself, unless it is a blank, and digits
stand behind the sign of a code point. Lenient readers pass over a sign of the digits. -/
inductive SpellsCode (lenient : Bool) : Nat → List Char → Prop
  | itself {c : Char} (hc : isWhite c = false) : SpellsCode lenient c.toNat [c]
  | numeral {sign : Char} {code : Nat} {digits : List Char} (hsign : sign = 'U' ∨ sign = 'u')
    (hne : digits ≠ []) (hcode : hexNumber? digits = some code) :
    SpellsCode lenient code (sign :: '+' :: digits)
  | signed {sign : Char} {code : Nat} {digits : List Char} (hlenient : lenient = true)
    (hsign : sign = 'U' ∨ sign = 'u') (hne : digits ≠ [])
    (hcode : hexNumber? digits = some code) :
    SpellsCode lenient code (sign :: '+' :: '+' :: digits)

/-- The text spells a range: by its ends, or by its only code point. -/
inductive SpellsRange (lenient : Bool) : CodeRange → List Char → Prop
  | one {code : Nat} {text : List Char} (h : SpellsCode lenient code text) :
    SpellsRange lenient ⟨code, code⟩ text
  | span {a b : Nat} {first last blank blank' : List Char} (hfirst : SpellsCode lenient a first)
    (hlast : SpellsCode lenient b last) (hblank : IsBlank blank) (hblank' : IsBlank blank') :
    SpellsRange lenient ⟨a, b⟩ (first ++ blank ++ '.' :: '.' :: (blank' ++ last))

/-- The text spells an entry. -/
inductive Spells (lenient : Bool) : Shape → List Char → Prop
  | same {r : CodeRange} {text : List Char} (h : SpellsRange lenient r text) :
    Spells lenient (.same r) text
  | onto {source target : CodeRange} {left right blank blank' : List Char}
    (hleft : SpellsRange lenient source left) (hright : SpellsRange lenient target right)
    (hblank : IsBlank blank) (hblank' : IsBlank blank') :
    Spells lenient (.onto source target) (left ++ blank ++ '-' :: '>' :: (blank' ++ right))
  | pairs {r : CodeRange} {text blank : List Char} (h : SpellsRange lenient r text)
    (hblank : IsBlank blank) : Spells lenient (.pairs r) (text ++ blank ++ ['/', '2'])

/-! ## Blanks -/

/-- A trimmed text begins and ends with characters that are not white space. -/
theorem tight_trim {text : List Char} (h : trim text ≠ []) : Tight (trim text) := by
  have htrims := Text.trims_trim text
  refine ⟨?_, ?_⟩
  · obtain ⟨c, rest, hcons⟩ := List.exists_cons_of_ne_nil h
    exact ⟨c, rest, hcons, htrims.first c (by rw [hcons]; rfl)⟩
  · refine ⟨_, _, (List.dropLast_concat_getLast h).symm, htrims.last _ ?_⟩
    exact List.getLast?_eq_getLast_of_ne_nil h

/-- Trimming takes blanks off. -/
theorem exists_blanks {text : List Char} (h : '\n' ∉ text) :
    ∃ blank blank', IsBlank blank ∧ IsBlank blank' ∧ text = blank ++ trim text ++ blank' := by
  obtain ⟨front, back, hparts, hfront, hback⟩ := (Text.trims_trim text).parts
  refine ⟨front, back, fun c hc => ⟨hfront c hc, ?_⟩, fun c hc => ⟨hback c hc, ?_⟩, hparts⟩
  · rintro rfl
    exact h (by rw [hparts]; simp [hc])
  · rintro rfl
    exact h (by rw [hparts]; simp [hc])

namespace Tight

variable {text blank : List Char}

/-- No blank stands in front of a tight text. -/
theorem eq_nil_of_prepend (h : Tight (blank ++ text)) (hblank : IsBlank blank) : blank = [] := by
  obtain ⟨c, rest, hcons, hc⟩ := h.first
  cases blank with
  | nil => rfl
  | cons b more =>
    obtain rfl : b = c := (List.cons.inj hcons).1
    exact absurd (hblank b List.mem_cons_self).1 (by simp [hc])

/-- No blank stands behind a tight text. -/
theorem eq_nil_of_append (h : Tight (text ++ blank)) (hblank : IsBlank blank) : blank = [] := by
  obtain ⟨rest, c, hconcat, hc⟩ := h.last
  rcases List.eq_nil_or_concat' blank with hnil | ⟨more, b, rfl⟩
  · exact hnil
  · rw [← List.append_assoc] at hconcat
    obtain rfl : b = c := (List.append_inj' hconcat rfl).2 |> List.singleton_inj.mp
    exact absurd (hblank b (by simp)).1 (by simp [hc])

end Tight

/-! ## What is read is spelled -/

/-- What is read digit by digit is the number that the digits spell. -/
theorem hexNumber?_of_hexValue {value n : Nat} {digits : List Char}
    (h : hexValue value digits = .ok n) :
    (digits.mapM hexDigit?).map (fun values => values.foldl (fun n d => 16 * n + d) value) =
      some n := by
  induction digits generalizing value with
  | nil => exact congrArg some (Except.ok.inj h)
  | cons c rest ih =>
    rw [hexValue] at h
    split at h
    · cases h
    · next d hd =>
      split at h
      · have hrest := ih h
        rw [List.mapM_cons, hd]
        cases hvalues : rest.mapM hexDigit? with
        | none => simp [hvalues] at hrest
        | some values => simpa [hvalues] using hrest
      · cases h

/-- A numeral that is read has digits, perhaps behind a sign. -/
theorem hexNumber?_of_readHexNumeral {text : List Char} {n : Nat}
    (h : readHexNumeral text = .ok n) :
    ∃ digits, digits ≠ [] ∧ hexNumber? digits = some n ∧
      (text = digits ∨ text = '+' :: digits) := by
  unfold readHexNumeral at h
  split at h
  · cases h
  · cases h
  · next digits hne => exact ⟨digits, hne, hexNumber?_of_hexValue h, .inr rfl⟩
  · next hne _ _ => exact ⟨text, hne, hexNumber?_of_hexValue h, .inl rfl⟩

/-- The digits stand behind a letter and a sign. -/
theorem afterSign?_eq_some {text digits : List Char} (h : afterSign? text = some digits) :
    ∃ sign, (sign = 'U' ∨ sign = 'u') ∧ text = sign :: '+' :: digits := by
  unfold afterSign? at h
  split at h
  · exact ⟨'U', .inl rfl, by rw [Option.some.inj h]⟩
  · exact ⟨'u', .inr rfl, by rw [Option.some.inj h]⟩
  · cases h

/-- A code that is read is spelled by its item. -/
theorem spellsCode_of_readCode {entry item : List Char} {code : Nat}
    (h : readCode entry item = .ok code) (hitem : item ≠ [] → Tight item) :
    SpellsCode true code item := by
  unfold readCode at h
  split at h
  · next digits hdigits =>
    obtain ⟨sign, hsign, rfl⟩ := afterSign?_eq_some hdigits
    split at h
    · next n hread =>
      cases h
      obtain ⟨digits, hne, hnumber, rfl | rfl⟩ := hexNumber?_of_readHexNumeral hread
      · exact .numeral hsign hne hnumber
      · exact .signed rfl hsign hne hnumber
    · cases h
  · split at h
    · next c _ =>
      cases h
      obtain ⟨c', rest, hcons, hc⟩ := (hitem (List.cons_ne_nil c [])).first
      obtain rfl : c = c' := (List.cons.inj hcons).1
      exact .itself hc
    · cases h

/-- A text that is cut at two characters consists of the parts and them. -/
theorem eq_of_splitAtPair? {a b : Char} {text front rest : List Char}
    (h : splitAtPair? a b text = some (front, rest)) : text = front ++ a :: b :: rest := by
  fun_induction splitAtPair? a b text generalizing front with
  | case1 c d more hpair =>
    cases h
    simp_all
  | case2 c d more hpair ih =>
    obtain ⟨parts, hparts, hcons⟩ := Option.map_eq_some_iff.mp h
    cases hcons
    rw [List.cons_append, ← ih hparts]
  | case3 => cases h

/-- Where a tight text is cut at two characters, the parts are trimmed at the cut only. -/
theorem exists_blanks_of_splitAtPair? {a b : Char} {text front rest : List Char} (h : Tight text)
    (hline : '\n' ∉ text) (hcut : splitAtPair? a b text = some (front, rest)) :
    ∃ blank blank', IsBlank blank ∧ IsBlank blank' ∧
      text = trim front ++ blank ++ a :: b :: (blank' ++ trim rest) := by
  have hparts := eq_of_splitAtPair? hcut
  have hline' : '\n' ∉ front ∧ '\n' ∉ rest := by
    rw [hparts] at hline
    simp_all
  obtain ⟨outer, blank, houter, hblank, hfront⟩ := exists_blanks hline'.1
  obtain ⟨blank', outer', hblank', houter', hrest⟩ := exists_blanks hline'.2
  have htext : text =
      outer ++ (trim front ++ blank ++ a :: b :: (blank' ++ trim rest)) ++ outer' := by
    conv_lhs => rw [hparts, hfront, hrest]
    simp
  have hnil' : outer' = [] := by
    rw [htext] at h
    exact h.eq_nil_of_append houter'
  have hnil : outer = [] := by
    rw [htext, List.append_assoc] at h
    exact h.eq_nil_of_prepend houter
  rw [hnil, hnil', List.nil_append, List.append_nil] at htext
  exact ⟨blank, blank', hblank, hblank', htext⟩

/-- Trimming adds no character. -/
theorem mem_of_mem_trim {c : Char} {text : List Char} (h : c ∈ trim text) : c ∈ text :=
  (List.dropWhile_sublist isWhite).mem ((List.rdropWhile_prefix isWhite _).mem h)

/-- A range that is read is spelled by its item, -/
theorem spellsRange_of_readRange {entry item : List Char} {first last : Nat}
    (h : readRange entry item = .ok (first, last)) (hitem : item ≠ [] → Tight item)
    (hline : '\n' ∉ item) : SpellsRange true ⟨first, last⟩ item := by
  obtain ⟨-, ⟨front, rest, hcut, hfirst, hlast⟩ | ⟨-, hcode, rfl⟩⟩ := readRange_cases h
  · have hne : item ≠ [] := by
      rintro rfl
      cases hcut
    obtain ⟨blank, blank', hblank, hblank', hparts⟩ :=
      exists_blanks_of_splitAtPair? (hitem hne) hline hcut
    rw [hparts]
    exact .span (spellsCode_of_readCode hfirst tight_trim) (spellsCode_of_readCode hlast tight_trim)
      hblank hblank'
  · exact .one (spellsCode_of_readCode hcode hitem)

/-- and so where blanks have been trimmed off. -/
theorem spellsRange_of_readRange_trim {entry text : List Char} {first last : Nat}
    (h : readRange entry (trim text) = .ok (first, last)) (hline : '\n' ∉ text) :
    SpellsRange true ⟨first, last⟩ (trim text) :=
  spellsRange_of_readRange h tight_trim fun hmem => hline (mem_of_mem_trim hmem)

/-- A halving stands at the end. -/
theorem eq_of_beforeHalving? {text range : List Char} (h : beforeHalving? text = some range) :
    text = range ++ ['/', '2'] := by
  unfold beforeHalving? at h
  split at h
  · next rest hrest =>
    cases h
    rw [← List.reverse_inj, hrest]
    simp
  · cases h

/-- What is read as an entry can be spelled as one, if a sign in front of digits is passed over. -/
theorem exists_spells_of_read {entry : List Char} {l : Listing} (h : Listing.read entry = .ok l)
    (htight : Tight entry) (hline : '\n' ∉ entry) : ∃ s, Spells true s entry := by
  obtain ⟨source, target, image, imageLast, hcut, hsource, htarget, -⟩ |
    ⟨range, -, hrange, hread, -⟩ | ⟨-, -, hread, -⟩ := Listing.read_cases h
  · have hparts := eq_of_splitAtPair? hcut
    obtain ⟨blank, blank', hblank, hblank', htext⟩ :=
      exists_blanks_of_splitAtPair? htight hline hcut
    have hleft := spellsRange_of_readRange_trim hsource
      fun hmem => hline (by simp [hparts, hmem])
    have hright := spellsRange_of_readRange_trim htarget
      fun hmem => hline (by simp [hparts, hmem])
    rw [htext]
    exact ⟨_, .onto hleft hright hblank hblank'⟩
  · have hparts := eq_of_beforeHalving? hrange
    have hline' : '\n' ∉ range := fun hmem => hline (by simp [hparts, hmem])
    obtain ⟨outer, blank, houter, hblank, htext⟩ := exists_blanks hline'
    rw [htext, List.append_assoc, List.append_assoc] at hparts
    have hnil : outer = [] := (hparts ▸ htight).eq_nil_of_prepend houter
    rw [hnil, List.nil_append, ← List.append_assoc] at hparts
    rw [hparts]
    exact ⟨_, .pairs (spellsRange_of_readRange_trim hread hline') hblank⟩
  · exact ⟨_, .same (spellsRange_of_readRange hread (fun _ => htight) hline)⟩

/-! ## What is spelled is read as it is spelled -/

/-- Two characters do not stand next to each other in the text, the one before the other. -/
def Apart (a b : Char) : List Char → Prop := List.IsChain fun c d => ¬ (c = a ∧ d = b)

namespace Apart

variable {a b : Char} {front rest text : List Char}

/-- In a single character, no pair stands. -/
theorem singleton (c : Char) : Apart a b [c] := List.isChain_singleton c

/-- There is no place where they meet. -/
theorem iff_ne : Apart a b text ↔ ∀ front rest, text ≠ front ++ a :: b :: rest := by
  rw [Apart, List.isChain_iff_forall_rel_of_append_cons_cons]
  constructor
  · exact fun h front rest heq => h heq ⟨rfl, rfl⟩
  · rintro h c d front rest heq ⟨rfl, rfl⟩
    exact h front rest heq

/-- Nor does one where its first character is missing, -/
theorem of_not_mem (h : a ∉ text) : Apart a b text :=
  iff_ne.mpr fun front rest heq => h (by simp [heq])

/-- or its second. -/
theorem of_not_mem_second (h : b ∉ text) : Apart a b text :=
  iff_ne.mpr fun front rest heq => h (by simp [heq])

/-- Texts without a pair have none together, unless they share one at the seam. -/
theorem append (hfront : Apart a b front) (hrest : Apart a b rest)
    (h : a ∉ front.getLast? ∨ b ∉ rest.head?) : Apart a b (front ++ rest) := by
  refine List.IsChain.append hfront hrest ?_
  rintro c hc d hd ⟨rfl, rfl⟩
  exact h.elim (· hc) (· hd)

/-- Where a pair does not stand, it is not found. -/
theorem splitAtPair?_eq_none (h : Apart a b text) : splitAtPair? a b text = none := by
  cases hcut : splitAtPair? a b text with
  | none => rfl
  | some parts => exact absurd (eq_of_splitAtPair? hcut) (iff_ne.mp h parts.1 parts.2)

/-- A text is cut at the first place where the two characters meet. -/
theorem splitAtPair?_append (h : Apart a b (front ++ [a])) (rest : List Char) :
    splitAtPair? a b (front ++ a :: b :: rest) = some (front, rest) := by
  induction front with
  | nil => simp [splitAtPair?]
  | cons c front ih =>
    obtain ⟨d, more, more', hmore, hmore'⟩ : ∃ d more more',
        front ++ a :: b :: rest = d :: more ∧ front ++ [a] = d :: more' := by
      cases front <;> exact ⟨_, _, _, rfl, rfl⟩
    rw [List.cons_append, hmore'] at h
    obtain ⟨hpair, hfront⟩ := List.isChain_cons_cons.mp h
    rw [← hmore'] at hfront
    rw [List.cons_append, hmore, splitAtPair?, if_neg (by simpa using hpair), ← hmore, ih hfront]
    rfl

/-- Nor is a halving. -/
theorem beforeHalving?_eq_none (h : Apart '/' '2' text) : beforeHalving? text = none := by
  cases hrange : beforeHalving? text with
  | none => rfl
  | some range => exact absurd (eq_of_beforeHalving? hrange) (iff_ne.mp h range [])

end Apart

section

variable {lenient : Bool} {code : Nat} {r : CodeRange} {a b : Char} {text : List Char}

/-- Blanks hold no character that is none. -/
theorem IsBlank.not_mem_of_isWhite (h : IsBlank text) (hb : isWhite b = false) : b ∉ text :=
  fun hmem => absurd (h b hmem).1 (by simp [hb])

/-- Digits of a code are plain. -/
theorem isPlain_of_hexNumber? {digits : List Char} (h : hexNumber? digits = some code) :
    ∀ c ∈ digits, IsPlain c := by
  obtain ⟨values, hvalues, -⟩ := Option.map_eq_some_iff.mp h
  clear h
  induction digits generalizing values with
  | nil => simp
  | cons c rest ih =>
    rw [List.mapM_cons] at hvalues
    obtain ⟨d, hd, hvalues⟩ := Option.bind_eq_some_iff.mp hvalues
    obtain ⟨more, hmore, -⟩ := Option.bind_eq_some_iff.mp hvalues
    simpa using ⟨isPlain_of_hexDigit? hd, ih more hmore⟩

/-- What spells a code point is one character, or consists of characters that are no marks. -/
theorem SpellsCode.cases_text (h : SpellsCode lenient code text) :
    (∃ c, text = [c] ∧ isWhite c = false) ∨ (text ≠ [] ∧ ∀ c ∈ text, IsPlain c) := by
  have hplus : IsPlain '+' := by decide
  cases h with
  | itself hc => exact .inl ⟨_, rfl, hc⟩
  | numeral hsign hne hcode =>
    exact .inr ⟨List.cons_ne_nil _ _, by
      simpa using ⟨isPlain_sign hsign, hplus, isPlain_of_hexNumber? hcode⟩⟩
  | signed hlenient hsign hne hcode =>
    exact .inr ⟨List.cons_ne_nil _ _, by
      simpa using ⟨isPlain_sign hsign, hplus, isPlain_of_hexNumber? hcode⟩⟩

/-- A spelled code is tight. -/
theorem SpellsCode.tight (h : SpellsCode lenient code text) : Tight text := by
  rcases h.cases_text with ⟨c, rfl, hc⟩ | ⟨hne, hplain⟩
  · exact ⟨⟨c, [], rfl, hc⟩, ⟨[], c, rfl, hc⟩⟩
  · exact .of_isPlain hne hplain

/-- No mark of two characters stands in it. -/
theorem SpellsCode.apart (h : SpellsCode lenient code text) (ha : a ∈ marks) :
    Apart a b text := by
  rcases h.cases_text with ⟨c, rfl, -⟩ | ⟨-, hplain⟩
  · exact .singleton c
  · exact .of_not_mem fun hmem => not_isPlain_of_mem_marks ha (hplain a hmem)

/-- A spelled range is tight. -/
theorem SpellsRange.tight (h : SpellsRange lenient r text) : Tight text := by
  cases h with
  | one h => exact h.tight
  | span hfirst hlast hblank hblank' => exact hfirst.tight.join_marked hlast.tight '.' '.'

/-- Marks other than dots stand in a range only as the characters at its ends. -/
theorem SpellsRange.apart (h : SpellsRange lenient r text) (ha : a ∈ marks) (ha' : a ≠ '.')
    (hb : isWhite b = false) (hb' : b ≠ '.') : Apart a b text := by
  cases h with
  | one h => exact h.apart ha
  | @span _ _ first last blank blank' hfirst hlast hblank hblank' =>
    -- dots and blanks stand between the ends, so no end meets anything but these
    have hmiddle : first ++ blank ++ '.' :: '.' :: (blank' ++ last) =
        first ++ (blank ++ '.' :: '.' :: blank') ++ last := by simp
    have hnot : a ∉ blank ++ '.' :: '.' :: blank' := by
      simpa using ⟨hblank.not_mem ha, ha', hblank'.not_mem ha⟩
    have hnot' : b ∉ blank ++ '.' :: '.' :: blank' := by
      simpa using ⟨hblank.not_mem_of_isWhite hb, hb', hblank'.not_mem_of_isWhite hb⟩
    rw [hmiddle]
    have hfront : Apart a b (first ++ (blank ++ '.' :: '.' :: blank')) :=
      (hfirst.apart ha).append (.of_not_mem hnot)
        (.inr fun hmem => hnot' (List.mem_of_head? hmem))
    refine hfront.append (hlast.apart ha) (.inl ?_)
    rw [List.getLast?_append_of_ne_nil _ (by simp)]
    exact fun hmem => hnot (List.mem_of_getLast? hmem)

/-- A plus sign is no digit. -/
theorem hexNumber?_plus (digits : List Char) : hexNumber? ('+' :: digits) = none := by
  have hplus : hexDigit? '+' = none := rfl
  rw [hexNumber?, List.mapM_cons, hplus]
  rfl

/-- Behind its letter and its sign, a code is a numeral. -/
theorem readHexNumeral_of_readCode {entry : List Char} {sign : Char}
    (hsign : sign = 'U' ∨ sign = 'u') (h : readCode entry (sign :: '+' :: text) = .ok code) :
    readHexNumeral text = .ok code := by
  have hafter : afterSign? (sign :: '+' :: text) = some text := by
    rcases hsign with rfl | rfl <;> rfl
  unfold readCode at h
  rw [hafter] at h
  dsimp only at h
  split at h
  · next n hread => rw [hread, Except.ok.inj h]
  · cases h

/-- A spelled code is read in one way only. -/
theorem SpellsCode.eq_of_readCode {entry : List Char} {code' : Nat}
    (h : SpellsCode true code text) (hread : readCode entry text = .ok code') : code = code' := by
  cases h with
  | itself hc =>
    rw [readCode, afterSign?_singleton] at hread
    exact Except.ok.inj hread
  | numeral hsign hne hcode =>
    -- since a sign is no digit, what is read with one is not spelled without
    obtain ⟨digits, -, hnumber, rfl | rfl⟩ :=
      hexNumber?_of_readHexNumeral (readHexNumeral_of_readCode hsign hread)
    · exact Option.some.inj (hcode.symm.trans hnumber)
    · cases (hexNumber?_plus _).symm.trans hcode
  | signed hlenient hsign hne hcode =>
    obtain ⟨digits, -, hnumber, rfl | hdigits⟩ :=
      hexNumber?_of_readHexNumeral (readHexNumeral_of_readCode hsign hread)
    · cases (hexNumber?_plus _).symm.trans hnumber
    · rw [(List.cons.inj hdigits).2] at hcode
      exact Option.some.inj (hcode.symm.trans hnumber)

/-- Behind the first end of a range, the dots are the first two that meet, unless that end is a dot
itself. -/
theorem SpellsCode.splitAtPair?_span {first blank : List Char} (h : SpellsCode lenient code first)
    (hblank : IsBlank blank) (rest : List Char) :
    splitAtPair? '.' '.' (first ++ blank ++ '.' :: '.' :: rest) = some (first ++ blank, rest) ∨
      first ++ blank = ['.'] := by
  have hdot : '.' ∈ marks := by decide
  have hnot : '.' ∉ blank := hblank.not_mem hdot
  by_cases hlast : '.' ∈ (first ++ blank).getLast?
  · refine .inr ?_
    have hnil : blank = [] := by
      by_contra hne
      rw [List.getLast?_append_of_ne_nil _ hne] at hlast
      exact hnot (List.mem_of_getLast? hlast)
    rw [hnil, List.append_nil] at hlast ⊢
    rcases h.cases_text with ⟨c, rfl, -⟩ | ⟨-, hplain⟩
    · simpa using hlast
    · exact absurd (hplain '.' (List.mem_of_getLast? hlast)) (by decide)
  · refine .inl (Apart.splitAtPair?_append ?_ _)
    have hfront : Apart '.' '.' (first ++ blank) :=
      (h.apart hdot).append (.of_not_mem hnot) (.inr fun hmem => hnot (List.mem_of_head? hmem))
    exact hfront.append (.singleton '.') (.inl hlast)

/-- So is a spelled range. -/
theorem SpellsRange.eq_of_readRange {entry : List Char} {first last : Nat}
    (h : SpellsRange true r text) (hread : readRange entry text = .ok (first, last)) :
    r = ⟨first, last⟩ := by
  obtain ⟨-, hcases⟩ := readRange_cases hread
  cases h with
  | one h =>
    rw [(h.apart (by decide)).splitAtPair?_eq_none] at hcases
    obtain ⟨_, _, hcut, -⟩ | ⟨-, hcode, rfl⟩ := hcases
    · cases hcut
    · rw [h.eq_of_readCode hcode]
  | @span _ _ front rest blank blank' hfirst hlast hblank hblank' =>
    rcases hfirst.splitAtPair?_span hblank (blank' ++ rest) with hcut | hdot
    · rw [hcut] at hcases
      obtain ⟨_, _, hparts, hcode, hcode'⟩ | ⟨hnone, -⟩ := hcases
      · cases hparts
        rw [hfirst.tight.trim_append hblank] at hcode
        rw [hlast.tight.trim_prepend hblank'] at hcode'
        rw [hfirst.eq_of_readCode hcode, hlast.eq_of_readCode hcode']
      · cases hnone
    · -- three dots are cut in front of the first one, where nothing is left to read
      rw [hdot] at hcases
      obtain ⟨_, _, hparts, hcode, -⟩ | ⟨hnone, -⟩ := hcases
      · cases hparts
        cases hcode
      · cases hnone

/-- What follows a range makes no arrow with it. -/
theorem SpellsRange.apart_append {rest : List Char} (h : SpellsRange lenient r text)
    (hrest : '>' ∉ rest) : Apart '-' '>' (text ++ rest) :=
  (h.apart (by decide) (by decide) (by decide) (by decide)).append (.of_not_mem_second hrest)
    (.inr fun hmem => hrest (List.mem_of_head? hmem))

/-- An entry is read in the only way in which it can be spelled, and if so, its ranges go upwards
and are equally long. -/
theorem Spells.eq_listing {s : Shape} {l : Listing} (h : Spells true s text)
    (hread : Listing.read text = .ok l) :
    l = s.listing ∧ (∀ r ∈ s.ranges, r.first ≤ r.last) ∧
      ∀ r ∈ s.ranges, ∀ r' ∈ s.ranges, r.last - r.first = r'.last - r'.first := by
  have hcases := Listing.read_cases hread
  obtain ⟨first, last, rule⟩ := l
  dsimp only at hcases
  cases h with
  | same h =>
    rw [(h.apart (by decide) (by decide) (by decide) (by decide)).splitAtPair?_eq_none,
      (h.apart (by decide) (by decide) (by decide) (by decide)).beforeHalving?_eq_none] at hcases
    obtain ⟨_, _, _, _, hcut, -⟩ | ⟨_, -, hrange, -⟩ | ⟨-, -, hrange, rfl⟩ := hcases
    · cases hcut
    · cases hrange
    · cases h.eq_of_readRange hrange
      have hle := le_of_readRange hrange
      exact ⟨rfl, by simpa [Shape.ranges] using hle, by simp [Shape.ranges]⟩
  | @onto source target left right blank blank' hleft hright hblank hblank' =>
    have htail : '>' ∉ blank ++ ['-'] := by simpa using hblank.not_mem (by decide)
    have hfront : Apart '-' '>' (left ++ blank ++ ['-']) := by
      rw [List.append_assoc]
      exact hleft.apart_append htail
    rw [hfront.splitAtPair?_append] at hcases
    obtain ⟨_, _, _, _, hcut, hsource, htarget, hequal, rfl⟩ | ⟨_, hnone, -⟩ | ⟨hnone, -⟩ :=
      hcases
    · cases hcut
      rw [hleft.tight.trim_append hblank] at hsource
      rw [hright.tight.trim_prepend hblank'] at htarget
      cases hleft.eq_of_readRange hsource
      cases hright.eq_of_readRange htarget
      have hle := le_of_readRange hsource
      have hle' := le_of_readRange htarget
      exact ⟨rfl, by simpa [Shape.ranges] using ⟨hle, hle'⟩,
        by simp [Shape.ranges, hequal]⟩
    · cases hnone
    · cases hnone
  | @pairs r range blank h hblank =>
    have htail : '>' ∉ blank ++ ['/', '2'] := by simpa using hblank.not_mem (by decide)
    rw [beforeHalving?_append, List.append_assoc,
      (h.apart_append htail).splitAtPair?_eq_none] at hcases
    obtain ⟨_, _, _, _, hcut, -⟩ | ⟨_, -, hrange, hread, rfl⟩ | ⟨-, hnone, -⟩ := hcases
    · cases hcut
    · cases hrange
      rw [h.tight.trim_append hblank] at hread
      cases h.eq_of_readRange hread
      have hle := le_of_readRange hread
      exact ⟨rfl, by simpa [Shape.ranges] using hle, by simp [Shape.ranges]⟩
    · cases hnone

end

end TextAnalysis.CharMap
