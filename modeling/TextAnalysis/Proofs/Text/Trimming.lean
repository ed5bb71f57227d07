import Mathlib.Data.List.DropRight
import TextAnalysis.Text.Words

/-!
# White space around a text

Trimming takes the white space off both ends of a text and nothing else. What is left of a text is
decided by this (`Trims.eq_trim`), so white space added at either end does not change it, and a
second trimming finds nothing to do.
-/

set_option autoImplicit false

namespace TextAnalysis.Text

open Unicode (isWhite)

/-- A text is cut where the characters end that have a property. -/
theorem cut_append {p : Char → Bool} {front rest : List Char} (hfront : ∀ c ∈ front, p c = true)
    (hrest : ∀ c ∈ rest.head?, p c = false) :
    (front ++ rest).takeWhile p = front ∧ (front ++ rest).dropWhile p = rest := by
  rw [List.takeWhile_append_of_pos hfront, List.dropWhile_append_of_pos hfront]
  cases rest with
  | nil => simp
  | cons c rest => simp [hrest c rfl]

/-- `kept` is the text without the white space at its ends. -/
structure Trims (text kept : List Char) : Prop where
  parts : ∃ front back, text = front ++ kept ++ back ∧ (∀ c ∈ front, isWhite c = true) ∧
    ∀ c ∈ back, isWhite c = true
  first : ∀ c ∈ kept.head?, isWhite c = false
  last : ∀ c ∈ kept.getLast?, isWhite c = false

/-- Trimming takes white space off at either end. -/
theorem trim_eq_rdropWhile (text : List Char) :
    trim text = (text.dropWhile isWhite).rdropWhile isWhite :=
  rfl

/-- What is trimmed has lost nothing but white space at its ends. -/
theorem trims_trim (text : List Char) : Trims text (trim text) := by
  refine ⟨⟨text.takeWhile isWhite, (text.dropWhile isWhite).rtakeWhile isWhite, ?_,
    fun c hc => List.mem_takeWhile_imp hc, fun c hc => List.mem_rtakeWhile_imp hc⟩,
    fun c hc => ?_, fun c hc => ?_⟩
  · rw [List.append_assoc, trim_eq_rdropWhile, List.rdropWhile_append_rtakeWhile,
      List.takeWhile_append_dropWhile]
  · have hhead := List.head?_dropWhile_not isWhite text
    obtain ⟨behind, hbehind⟩ := List.rdropWhile_prefix isWhite (text.dropWhile isWhite)
    rw [← hbehind, ← trim_eq_rdropWhile, List.head?_append, hc] at hhead
    simpa using hhead
  · obtain ⟨hne, rfl⟩ := List.mem_getLast?_eq_getLast hc
    exact Bool.eq_false_iff.mpr (List.rdropWhile_last_not isWhite (text.dropWhile isWhite) hne)

/-- White space around a text is taken off with that of the text. -/
theorem trim_append_white {front text back : List Char} (hfront : ∀ c ∈ front, isWhite c = true)
    (hback : ∀ c ∈ back, isWhite c = true) : trim (front ++ text ++ back) = trim text := by
  have hreverse : ∀ c ∈ back.reverse, isWhite c = true :=
    fun c hc => hback c (List.mem_reverse.mp hc)
  rw [trim_eq_rdropWhile, trim_eq_rdropWhile, List.append_assoc,
    List.dropWhile_append_of_pos hfront, List.dropWhile_append]
  split
  · next hempty =>
    rw [List.isEmpty_iff.mp hempty, List.dropWhile_eq_nil_iff.mpr hback]
  · rw [List.rdropWhile, List.reverse_append, List.dropWhile_append_of_pos hreverse]
    rfl

/-- Behind a character that is no white space, what is in front of it stays. -/
theorem trim_append_cons {c : Char} {text rest : List Char} (hc : isWhite c = false)
    (htext : ∀ d ∈ text.head?, isWhite d = false) :
    ∃ rest', trim (text ++ c :: rest) = text ++ c :: rest' := by
  have hfront : (text ++ c :: rest).dropWhile isWhite = text ++ c :: rest := by
    cases text with
    | nil => exact List.dropWhile_cons_of_neg (by simp [hc])
    | cons d more => exact List.dropWhile_cons_of_neg (by simp [htext d rfl])
  have hsplit : (text ++ c :: rest).reverse = rest.reverse ++ c :: text.reverse := by simp
  refine ⟨rest.rdropWhile isWhite, ?_⟩
  rw [trim_eq_rdropWhile, hfront, List.rdropWhile, hsplit, List.dropWhile_append]
  split
  · next hempty =>
    rw [List.dropWhile_cons_of_neg (by simp [hc]), List.rdropWhile, List.isEmpty_iff.mp hempty]
    simp
  · rw [List.rdropWhile]
    simp

/-- A text without white space at its ends stays as it is. -/
theorem trim_eq_self {text : List Char} (hfirst : ∀ c ∈ text.head?, isWhite c = false)
    (hlast : ∀ c ∈ text.getLast?, isWhite c = false) : trim text = text := by
  have hfront : text.dropWhile isWhite = text := by
    cases text with
    | nil => rfl
    | cons c rest => exact List.dropWhile_cons_of_neg (by simp [hfirst c rfl])
  rw [trim_eq_rdropWhile, hfront, List.rdropWhile_eq_self_iff]
  exact fun hne => by simp [hlast _ (List.getLast?_eq_getLast_of_ne_nil hne)]

/-- Only one text is left of a text without the white space at its ends. -/
theorem Trims.eq_trim {text kept : List Char} (h : Trims text kept) : kept = trim text := by
  obtain ⟨front, back, rfl, hfront, hback⟩ := h.parts
  rw [trim_append_white hfront hback, trim_eq_self h.first h.last]

/-- Trimming once is enough. -/
theorem trim_trim (text : List Char) : trim (trim text) = trim text :=
  trim_eq_self (trims_trim text).first (trims_trim text).last

/-- Changing characters in a way that keeps white space apart goes together with trimming. -/
theorem trim_map {f : Char → Char} (hf : ∀ c, isWhite (f c) = isWhite c) (text : List Char) :
    trim (text.map f) = (trim text).map f := by
  have hcomp : isWhite ∘ f = isWhite := funext hf
  rw [trim_eq_rdropWhile, trim_eq_rdropWhile, List.dropWhile_map, hcomp, List.rdropWhile,
    ← List.map_reverse, List.dropWhile_map, hcomp, List.rdropWhile, List.map_reverse]

end TextAnalysis.Text
