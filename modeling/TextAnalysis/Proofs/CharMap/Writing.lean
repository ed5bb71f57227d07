import TextAnalysis.Proofs.CharMap.Listing

/-!
# Written character tables

How character tables are written: characters as themselves or by their code points, ranges, the
three kinds of entries, and lines of entries with blanks, empty places and comments. The relations
of this module say which texts write what, without reading them: the main one is `WritesTable`.
What an entry means is `Entry.source`, the characters that it lists, and `Entry.target`, what it
maps them to; the listing that reading it should find out means the same
(`Entry.image?_listing_of_mem`, `Entry.image?_listing_of_not_mem`).
-/

set_option autoImplicit false

namespace TextAnalysis.CharMap

open Text (trim dropWhite)
open Unicode (isWhite)

/-! ## What is written -/

/-- A range of characters, both ends included, with no code point between them that is not a
character. -/
structure CharRange where
  first : Char
  last : Char
  first_le_last : first.toNat ≤ last.toNat
  isValidChar : ∀ code, first.toNat ≤ code → code ≤ last.toNat → code.isValidChar

namespace CharRange

instance : Membership Char CharRange where
  mem r c := r.first.toNat ≤ c.toNat ∧ c.toNat ≤ r.last.toNat

instance (r : CharRange) (c : Char) : Decidable (c ∈ r) :=
  inferInstanceAs (Decidable (r.first.toNat ≤ c.toNat ∧ c.toNat ≤ r.last.toNat))

/-- The number of characters. -/
def size (r : CharRange) : Nat := r.last.toNat - r.first.toNat + 1

/-- The place of a character in the range, counted from zero. -/
def place (r : CharRange) (c : Char) : Nat := c.toNat - r.first.toNat

/-- The character at a place of the range. -/
def char (r : CharRange) (k : Nat) : Char := .ofNat (r.first.toNat + k)

end CharRange

/-- An entry of a character table. -/
inductive Entry where
  /-- Maps every character of a range to itself. -/
  | same (r : CharRange)
  /-- Maps the characters of a range to those at the same places of another one. -/
  | onto (source target : CharRange) (sizes : source.size = target.size)
  /-- Maps the characters of a range pairwise to the second of each pair. -/
  | pairs (r : CharRange) (even : r.size % 2 = 0)

namespace Entry

/-- The characters that an entry lists. -/
def source : Entry → CharRange
  | same r => r
  | onto source _ _ => source
  | pairs r _ => r

/-- What an entry maps a character to that it lists. -/
def target (e : Entry) (c : Char) : Char :=
  match e with
  | same _ => c
  | onto source target _ => target.char (source.place c)
  | pairs r _ => r.char (2 * (r.place c / 2) + 1)

/-- What reading the entry finds out. -/
def listing : Entry → Listing
  | same r => ⟨r.first.toNat, r.last.toNat, .shift r.first.toNat⟩
  | onto source target _ => ⟨source.first.toNat, source.last.toNat, .shift target.first.toNat⟩
  | pairs r _ => ⟨r.first.toNat, r.last.toNat, .pairs⟩

/-- The listing of an entry gives the characters that it lists their targets, -/
theorem image?_listing_of_mem {e : Entry} {c : Char} (h : c ∈ e.source) :
    e.listing.image? c = some (e.target c) := by
  obtain ⟨hfirst, hlast⟩ := h
  cases e with
  | same r =>
    dsimp only [source] at hfirst hlast
    have himage : r.first.toNat + (c.toNat - r.first.toNat) = c.toNat := by omega
    rw [listing, Listing.image?]
    dsimp only
    rw [if_pos ⟨hfirst, hlast⟩, himage, Char.ofNat_toNat]
    rfl
  | onto source target sizes => exact if_pos ⟨hfirst, hlast⟩
  | pairs r even =>
    dsimp only [source] at hfirst hlast
    rw [CharRange.size] at even
    have hle := r.first_le_last
    have hsecond : r.first.toNat + (2 * ((c.toNat - r.first.toNat) / 2) + 1) =
        c.toNat + 1 - (c.toNat - r.first.toNat) % 2 := by omega
    have hlisted : r.first.toNat ≤ c.toNat ∧
        c.toNat + 1 - (c.toNat - r.first.toNat) % 2 ≤ r.last.toNat := by omega
    rw [target, CharRange.char, CharRange.place, hsecond]
    exact if_pos hlisted

/-- and no others. -/
theorem image?_listing_of_not_mem {e : Entry} {c : Char} (h : c ∉ e.source) :
    e.listing.image? c = none := by
  have hspans : ¬ e.listing.Spans c := by
    cases e <;> exact h
  rw [← Option.not_isSome_iff_eq_none, Listing.isSome_image?_iff]
  exact fun hlisted => hspans hlisted.1

/-- What an entry asks for can be done. -/
theorem exists_addTo (e : Entry) (entry : List Char) (table : Std.ExtTreeMap Char String) :
    ∃ table', e.listing.addTo entry table = .ok table' := by
  cases e with
  | same r =>
    have hle := r.first_le_last
    refine exists_listRange (fun k hk => ?_) table
    dsimp only [listing] at hk ⊢
    have hvalid := r.isValidChar (r.first.toNat + k) (by omega) (by omega)
    exact ⟨hvalid, hvalid⟩
  | onto source target sizes =>
    have hle := source.first_le_last
    have hle' := target.first_le_last
    have hsizes : source.last.toNat - source.first.toNat + 1 =
        target.last.toNat - target.first.toNat + 1 := sizes
    refine exists_listRange (fun k hk => ?_) table
    dsimp only [listing] at hk ⊢
    exact ⟨source.isValidChar _ (by omega) (by omega), target.isValidChar _ (by omega) (by omega)⟩
  | pairs r even =>
    have hle := r.first_le_last
    refine exists_listPairs (fun k hk => ?_) table
    dsimp only [listing] at hk ⊢
    exact r.isValidChar _ (by omega) (by omega)

end Entry

/-! ## How it is written -/

/-- A character that may stand for itself. -/
def IsPlain (c : Char) : Prop := isWhite c = false ∧ c ∉ [',', '#', '.', '-', '>', '/']

instance (c : Char) : Decidable (IsPlain c) := by
  unfold IsPlain
  infer_instance

/-- White space inside a line. The end of a line may be written with a carriage return, which is
white space as well. -/
def IsBlank (blank : List Char) : Prop := ∀ c ∈ blank, isWhite c = true ∧ c ≠ '\n'

/-- The text writes a character: as itself, or by its code point in hexadecimal digits of either
case, with any number of zeros in front. -/
inductive WritesChar (c : Char) : List Char → Prop
  | itself (hplain : IsPlain c) : WritesChar c [c]
  | code {sign : Char} {zeros : Nat} {digits : List Char} (hsign : sign = 'U' ∨ sign = 'u')
    (hdigits : digits.map Char.toLower = List.replicate zeros '0' ++ Nat.toDigits 16 c.toNat) :
    WritesChar c (sign :: '+' :: digits)

/-- The text writes a range: by its ends, or by its only character. -/
inductive WritesRange (r : CharRange) : List Char → Prop
  | one {text : List Char} (hone : r.first = r.last) (h : WritesChar r.first text) :
    WritesRange r text
  | span {first last blank blank' : List Char} (hfirst : WritesChar r.first first)
    (hlast : WritesChar r.last last) (hblank : IsBlank blank) (hblank' : IsBlank blank') :
    WritesRange r (first ++ blank ++ '.' :: '.' :: (blank' ++ last))

/-- The text writes an entry. -/
inductive WritesEntry : Entry → List Char → Prop
  | same {r : CharRange} {text : List Char} (h : WritesRange r text) : WritesEntry (.same r) text
  | onto {source target : CharRange} {sizes : source.size = target.size}
    {left right blank blank' : List Char} (hleft : WritesRange source left)
    (hright : WritesRange target right) (hblank : IsBlank blank) (hblank' : IsBlank blank') :
    WritesEntry (.onto source target sizes) (left ++ blank ++ '-' :: '>' :: (blank' ++ right))
  | pairs {r : CharRange} {even : r.size % 2 = 0} {text blank : List Char} (h : WritesRange r text)
    (hblank : IsBlank blank) : WritesEntry (.pairs r even) (text ++ blank ++ ['/', '2'])

/-- The text writes an entry among blanks, or nothing. -/
inductive WritesPlace : List Entry → List Char → Prop
  | nothing {blank : List Char} (hblank : IsBlank blank) : WritesPlace [] blank
  | entry {e : Entry} {text blank blank' : List Char} (h : WritesEntry e text)
    (hblank : IsBlank blank) (hblank' : IsBlank blank') : WritesPlace [e] (blank ++ text ++ blank')

/-- The text is made of parts with separators between them. -/
inductive Joined (separator : Char) (part : List Entry → List Char → Prop) :
    List Entry → List Char → Prop
  | last {es : List Entry} {text : List Char} (h : part es text) : Joined separator part es text
  | cons {es es' : List Entry} {text text' : List Char} (h : part es text)
    (hrest : Joined separator part es' text') :
    Joined separator part (es ++ es') (text ++ separator :: text')

/-- The text writes a line of places with commas between them, and perhaps a comment. -/
inductive WritesLine : List Entry → List Char → Prop
  | plain {es : List Entry} {text : List Char} (h : Joined ',' WritesPlace es text) :
    WritesLine es text
  | commented {es : List Entry} {text comment : List Char} (h : Joined ',' WritesPlace es text)
    (hcomment : '\n' ∉ comment) : WritesLine es (text ++ '#' :: comment)

/-- The text writes the lines of a table. -/
def WritesTable : List Entry → List Char → Prop := Joined '\n' WritesLine

end TextAnalysis.CharMap
