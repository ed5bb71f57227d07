import TextAnalysis.CharMap.Table
import Mathlib.Data.List.Forall2

/-!
# What a character table lists

An entry of a character table asks for a range of characters to be listed, by one of two rules: each
is mapped to the character at its place of another range, or they pair up and both of a pair are
mapped to the second. Reading an entry is finding out what it asks for, and then doing it
(`readEntry_eq`); what has been done lies over what the table held before (`getElem?_addTo`). So an
accepted table maps a character as the last of its entries that lists it does (`get?_ofTable`).

Pairs stand inside the range: where its number of characters is odd, the last of them has no second
and is not listed. Main statement: `kept_iff_listed`, that this is the only character of a range
that may be left out.
-/

set_option autoImplicit false

namespace TextAnalysis.CharMap

open Text (trim)

/-! ## Listings -/

/-- What the characters of a range are mapped to. -/
inductive Rule where
  /-- To the character at the same place of the range that begins at `image`. -/
  | shift (image : Nat)
  /-- Both of a pair to the second. -/
  | pairs
  deriving DecidableEq, Repr

/-- What an entry asks for: a range, by its first and last code point, and a rule. -/
structure Listing where
  first : Nat
  last : Nat
  rule : Rule
  deriving DecidableEq, Repr

namespace Listing

/-- Does the character lie in the range? -/
def Spans (l : Listing) (c : Char) : Prop := l.first ≤ c.toNat ∧ c.toNat ≤ l.last

instance (l : Listing) (c : Char) : Decidable (l.Spans c) := by
  unfold Spans
  infer_instance

/-- The second of the pair that a character of the range belongs to. -/
def second (l : Listing) (c : Char) : Nat := c.toNat + 1 - (c.toNat - l.first) % 2

/-- What a character is mapped to, where it is listed. Pairs are listed if both of the pair lie in
the range. -/
def image? (l : Listing) (c : Char) : Option Char :=
  match l.rule with
  | .shift image => if l.Spans c then some (.ofNat (image + (c.toNat - l.first))) else none
  | .pairs => if l.first ≤ c.toNat ∧ l.second c ≤ l.last then some (.ofNat (l.second c)) else none

/-- Is the character left over at the end of a range that pairs up? -/
def LeavesOver (l : Listing) (c : Char) : Prop :=
  l.rule = .pairs ∧ c.toNat = l.last ∧ (l.last - l.first) % 2 = 0

/-- A listing lists all characters of its range, except one that is left over. -/
theorem isSome_image?_iff (l : Listing) (c : Char) :
    (l.image? c).isSome = true ↔ l.Spans c ∧ ¬ l.LeavesOver c := by
  obtain ⟨first, last, rule⟩ := l
  cases rule with
  | shift image =>
    rw [image?, Option.isSome_ite]
    simp [LeavesOver]
  | pairs =>
    rw [image?, Option.isSome_ite]
    simp only [second, LeavesOver, Spans, true_and]
    omega

/-- Reads what an entry asks for. -/
def read (entry : List Char) : Except TableFault Listing :=
  match splitAtPair? '-' '>' entry with
  | some (source, target) => do
    let (first, last) ← readRange entry (trim source)
    let (image, imageLast) ← readRange entry (trim target)
    if last - first = imageLast - image then .ok ⟨first, last, .shift image⟩
    else .error (.unequalRanges (String.ofList entry))
  | none =>
    match beforeHalving? entry with
    | some range => do
      let (first, last) ← readRange entry (trim range)
      return ⟨first, last, .pairs⟩
    | none => do
      let (first, last) ← readRange entry entry
      return ⟨first, last, .shift first⟩

/-- Does to a table what an entry asks for. -/
def addTo (entry : List Char) (table : Std.ExtTreeMap Char String) (l : Listing) :
    Except TableFault (Std.ExtTreeMap Char String) :=
  match l.rule with
  | .shift image => listRange entry table l.first image (l.last - l.first + 1)
  | .pairs => listPairs entry table l.first ((l.last - l.first + 1) / 2)

end Listing

/-- Reading an entry is finding out what it asks for and doing it. -/
theorem readEntry_eq (table : Std.ExtTreeMap Char String) (entry : List Char) :
    readEntry table entry = Listing.read entry >>= Listing.addTo entry table := by
  unfold readEntry Listing.read
  cases splitAtPair? '-' '>' entry with
  | some parts =>
    dsimp only
    cases readRange entry (trim parts.1) with
    | error fault => rfl
    | ok source =>
      cases readRange entry (trim parts.2) with
      | error fault => rfl
      | ok target =>
        dsimp only [bind, Except.bind]
        split <;> rfl
  | none =>
    cases beforeHalving? entry with
    | some range =>
      dsimp only
      cases readRange entry (trim range) with
      | error fault => rfl
      | ok source => rfl
    | none =>
      dsimp only
      cases readRange entry entry with
      | error fault => rfl
      | ok source => rfl

/-! ## Ranges -/

/-- What two steps come to has come from the first. -/
theorem exists_of_bind_eq_ok {ε α β : Type} {x : Except ε α} {f : α → Except ε β} {b : β}
    (h : x >>= f = .ok b) : ∃ a, x = .ok a ∧ f a = .ok b := by
  cases x with
  | error e => cases h
  | ok a => exact ⟨a, rfl, h⟩

/-- A range is read from its two ends, or from its only character, and is not reversed. -/
theorem readRange_cases {entry item : List Char} {first last : Nat}
    (h : readRange entry item = .ok (first, last)) :
    first ≤ last ∧
      ((∃ front rest, splitAtPair? '.' '.' item = some (front, rest) ∧
          readCode entry (trim front) = .ok first ∧ readCode entry (trim rest) = .ok last) ∨
        (splitAtPair? '.' '.' item = none ∧ readCode entry item = .ok first ∧ first = last)) := by
  have hends {a b : Nat} (h : (if b < a then .error (.reversedRange (String.ofList entry))
      else .ok (a, b) : Except TableFault (Nat × Nat)) = .ok (first, last)) :
      a ≤ b ∧ a = first ∧ b = last := by
    split at h
    · cases h
    · next hle => exact ⟨Nat.le_of_not_lt hle, Prod.mk.inj (Except.ok.inj h)⟩
  rw [readRange] at h
  split at h
  · next front rest hcut =>
    obtain ⟨a, ha, h⟩ := exists_of_bind_eq_ok h
    obtain ⟨b, hb, h⟩ := exists_of_bind_eq_ok h
    obtain ⟨hle, rfl, rfl⟩ := hends h
    exact ⟨hle, .inl ⟨front, rest, hcut, ha, hb⟩⟩
  · next hcut =>
    obtain ⟨a, ha, h⟩ := exists_of_bind_eq_ok h
    obtain ⟨hle, rfl, rfl⟩ := hends h
    exact ⟨hle, .inr ⟨hcut, ha, rfl⟩⟩

/-- A range that has been read is not reversed. -/
theorem le_of_readRange {entry item : List Char} {first last : Nat}
    (h : readRange entry item = .ok (first, last)) : first ≤ last :=
  (readRange_cases h).1

/-- An entry is read from the ranges around its arrow, from the range that pairs up, or as a
range. -/
theorem Listing.read_cases {entry : List Char} {l : Listing} (h : read entry = .ok l) :
    (∃ source target image imageLast,
      splitAtPair? '-' '>' entry = some (source, target) ∧
      readRange entry (trim source) = .ok (l.first, l.last) ∧
      readRange entry (trim target) = .ok (image, imageLast) ∧
      l.last - l.first = imageLast - image ∧ l.rule = .shift image) ∨
    (∃ range,
      splitAtPair? '-' '>' entry = none ∧ beforeHalving? entry = some range ∧
      readRange entry (trim range) = .ok (l.first, l.last) ∧ l.rule = .pairs) ∨
    (splitAtPair? '-' '>' entry = none ∧ beforeHalving? entry = none ∧
      readRange entry entry = .ok (l.first, l.last) ∧ l.rule = .shift l.first) := by
  unfold read at h
  split at h
  · next source target hcut =>
    obtain ⟨⟨first, last⟩, hsource, h⟩ := exists_of_bind_eq_ok h
    obtain ⟨⟨image, imageLast⟩, htarget, h⟩ := exists_of_bind_eq_ok h
    dsimp only at h
    split at h
    · next hequal =>
      cases h
      exact .inl ⟨source, target, image, imageLast, hcut, hsource, htarget, hequal, rfl⟩
    · cases h
  · next hcut =>
    split at h
    · next range hrange =>
      obtain ⟨⟨first, last⟩, hread, h⟩ := exists_of_bind_eq_ok h
      cases h
      exact .inr (.inl ⟨range, hcut, hrange, hread, rfl⟩)
    · next hrange =>
      obtain ⟨⟨first, last⟩, hread, h⟩ := exists_of_bind_eq_ok h
      cases h
      exact .inr (.inr ⟨hcut, hrange, hread, rfl⟩)

/-- The range that is listed has been read. -/
theorem Listing.exists_readRange {entry : List Char} {l : Listing} (h : read entry = .ok l) :
    ∃ item, readRange entry item = .ok (l.first, l.last) := by
  obtain ⟨_, _, _, _, -, hread, -⟩ | ⟨_, -, -, hread, -⟩ | ⟨-, -, hread, -⟩ := read_cases h
  · exact ⟨_, hread⟩
  · exact ⟨_, hread⟩
  · exact ⟨_, hread⟩

/-- A listing that has been read is not reversed. -/
theorem Listing.first_le_last_of_read {entry : List Char} {l : Listing} (h : read entry = .ok l) :
    l.first ≤ l.last := by
  obtain ⟨item, hread⟩ := exists_readRange h
  exact le_of_readRange hread

/-! ## Lists of characters -/

variable {entry : List Char} {table table' : Std.ExtTreeMap Char String}

/-- A valid code point is that of its character. -/
theorem toNat_ofNat {code : Nat} (h : code.isValidChar) : (Char.ofNat code).toNat = code := by
  rw [Char.ofNat, dif_pos h]
  rfl

/-- Listing a code point changes the image of its character alone. -/
theorem getElem?_insert_ofNat {code : Nat} (hcode : code.isValidChar) (image : String) (c : Char) :
    (table.insert (.ofNat code) image)[c]? = if c.toNat = code then some image else table[c]? := by
  have hiff : Char.ofNat code = c ↔ c.toNat = code := by
    constructor
    · rintro rfl
      exact toNat_ofNat hcode
    · rintro rfl
      exact Char.ofNat_toNat c
  rw [Std.ExtTreeMap.getElem?_insert]
  simp only [Std.compare_eq_iff_eq, hiff]

/-- One more character of a range is listed. -/
theorem listRange_succ_eq_ok_iff {first image count : Nat} :
    listRange entry table first image (count + 1) = .ok table' ↔
      first.isValidChar ∧ image.isValidChar ∧
        listRange entry (table.insert (.ofNat first) (Char.ofNat image).toString) (first + 1)
          (image + 1) count = .ok table' := by
  rw [listRange]
  by_cases hfirst : first.isValidChar
  · by_cases himage : image.isValidChar
    · simp [charOfCode, hfirst, himage]
    · simp [charOfCode, hfirst, himage]
  · simp [charOfCode, hfirst]

/-- One more pair is listed. -/
theorem listPairs_succ_eq_ok_iff {first count : Nat} :
    listPairs entry table first (count + 1) = .ok table' ↔
      (first + 1).isValidChar ∧ first.isValidChar ∧
        listPairs entry
          ((table.insert (.ofNat first) (Char.ofNat (first + 1)).toString).insert
            (.ofNat (first + 1)) (Char.ofNat (first + 1)).toString) (first + 2) count =
          .ok table' := by
  rw [listPairs]
  by_cases hsecond : (first + 1).isValidChar
  · by_cases hfirst : first.isValidChar
    · simp [charOfCode, hfirst, hsecond]
    · simp [charOfCode, hfirst, hsecond]
  · simp [charOfCode, hsecond]

/-- A range can be listed if all its code points, and all those that they are mapped to, are
characters. -/
theorem exists_listRange {first image count : Nat}
    (h : ∀ k < count, (first + k).isValidChar ∧ (image + k).isValidChar)
    (table : Std.ExtTreeMap Char String) :
    ∃ table', listRange entry table first image count = .ok table' := by
  induction count generalizing first image table with
  | zero => exact ⟨table, rfl⟩
  | succ count ih =>
    have hrest (k : Nat) (hk : k < count) :
        (first + 1 + k).isValidChar ∧ (image + 1 + k).isValidChar := by
      rw [Nat.add_assoc, Nat.add_assoc, Nat.add_comm 1 k]
      exact h (k + 1) (by omega)
    obtain ⟨table', htable'⟩ := ih hrest _
    have hfirst := h 0 count.succ_pos
    exact ⟨table', listRange_succ_eq_ok_iff.mpr ⟨hfirst.1, hfirst.2, htable'⟩⟩

/-- Pairs can be listed if all their code points are characters. -/
theorem exists_listPairs {first count : Nat} (h : ∀ k < 2 * count, (first + k).isValidChar)
    (table : Std.ExtTreeMap Char String) :
    ∃ table', listPairs entry table first count = .ok table' := by
  induction count generalizing first table with
  | zero => exact ⟨table, rfl⟩
  | succ count ih =>
    have hrest (k : Nat) (hk : k < 2 * count) : (first + 2 + k).isValidChar := by
      rw [Nat.add_assoc, Nat.add_comm 2 k]
      exact h (k + 2) (by omega)
    obtain ⟨table', htable'⟩ := ih hrest _
    exact ⟨table', listPairs_succ_eq_ok_iff.mpr ⟨h 1 (by omega), h 0 (by omega), htable'⟩⟩

/-- A listed range lies over the table. -/
theorem getElem?_listRange {first image count : Nat}
    (h : listRange entry table first image count = .ok table') (c : Char) :
    table'[c]? =
      if first ≤ c.toNat ∧ c.toNat < first + count then
        some (Char.ofNat (image + (c.toNat - first))).toString
      else table[c]? := by
  induction count generalizing table first image with
  | zero =>
    cases h
    rw [if_neg (by omega)]
  | succ count ih =>
    obtain ⟨hfirst, -, hrest⟩ := listRange_succ_eq_ok_iff.mp h
    rw [ih hrest, getElem?_insert_ofNat hfirst]
    by_cases hc : c.toNat = first
    · rw [if_neg (by omega), if_pos hc, if_pos (by omega), hc, Nat.sub_self, Nat.add_zero]
    · rw [if_neg hc]
      have himage : first + 1 ≤ c.toNat → image + 1 + (c.toNat - (first + 1)) =
          image + (c.toNat - first) := by omega
      split
      · next hin => rw [himage hin.1, if_pos (by omega)]
      · rw [if_neg (by omega)]

/-- Listed pairs lie over the table. -/
theorem getElem?_listPairs {first count : Nat}
    (h : listPairs entry table first count = .ok table') (c : Char) :
    table'[c]? =
      if first ≤ c.toNat ∧ c.toNat < first + 2 * count then
        some (Char.ofNat (c.toNat + 1 - (c.toNat - first) % 2)).toString
      else table[c]? := by
  induction count generalizing table first with
  | zero =>
    cases h
    rw [if_neg (by omega)]
  | succ count ih =>
    obtain ⟨hsecond, hfirst, hrest⟩ := listPairs_succ_eq_ok_iff.mp h
    rw [ih hrest, getElem?_insert_ofNat hsecond, getElem?_insert_ofNat hfirst]
    by_cases hc : c.toNat = first + 1
    · have himage : c.toNat + 1 - (c.toNat - first) % 2 = first + 1 := by omega
      rw [if_neg (by omega), if_pos hc, if_pos (by omega), himage]
    · rw [if_neg hc]
      by_cases hc' : c.toNat = first
      · have himage : c.toNat + 1 - (c.toNat - first) % 2 = first + 1 := by omega
        rw [if_neg (by omega), if_pos hc', if_pos (by omega), himage]
      · rw [if_neg hc']
        have himage : first + 2 ≤ c.toNat → c.toNat + 1 - (c.toNat - (first + 2)) % 2 =
            c.toNat + 1 - (c.toNat - first) % 2 := by omega
        split
        · next hin => rw [himage hin.1, if_pos (by omega)]
        · rw [if_neg (by omega)]

/-- What has been listed lies over the table. -/
theorem getElem?_addTo {l : Listing} (hl : l.first ≤ l.last)
    (h : l.addTo entry table = .ok table') (c : Char) :
    table'[c]? = ((l.image? c).map Char.toString).or table[c]? := by
  obtain ⟨first, last, rule⟩ := l
  dsimp only at hl
  cases rule with
  | shift image =>
    have hspans : first ≤ c.toNat ∧ c.toNat < first + (last - first + 1) ↔
        Listing.Spans ⟨first, last, .shift image⟩ c :=
      and_congr_right fun _ => by dsimp only; omega
    rw [getElem?_listRange h, Listing.image?]
    simp only [hspans]
    split <;> rfl
  | pairs =>
    have hpairs : first ≤ c.toNat ∧ c.toNat < first + 2 * ((last - first + 1) / 2) ↔
        first ≤ c.toNat ∧ Listing.second ⟨first, last, .pairs⟩ c ≤ last :=
      and_congr_right fun _ => by dsimp only [Listing.second]; omega
    rw [getElem?_listPairs h, Listing.image?]
    simp only [hpairs]
    split <;> rfl

/-! ## Tables -/

/-- What the last of the listings that list a character maps it to. -/
def lastImage? (ls : List Listing) (c : Char) : Option Char :=
  ls.reverse.findSome? fun l => l.image? c

/-- The last image among several listings is that of the first where no other gives one. -/
theorem lastImage?_cons (l : Listing) (ls : List Listing) (c : Char) :
    lastImage? (l :: ls) c = (lastImage? ls c).or (l.image? c) := by
  rw [lastImage?, List.reverse_cons, List.findSome?_append, List.findSome?_singleton]
  rfl

/-- No listing gives an image exactly where each of them gives none. -/
theorem lastImage?_eq_none_iff {ls : List Listing} {c : Char} :
    lastImage? ls c = none ↔ ∀ l ∈ ls, l.image? c = none := by
  rw [lastImage?, List.findSome?_eq_none_iff]
  simp only [List.mem_reverse]

/-- Entry by entry, each lies over those before it. -/
theorem exists_listings {entries : List (List Char)}
    (h : entries.foldlM readEntry table = .ok table') :
    ∃ ls, List.Forall₂ (fun e l => Listing.read e = .ok l) entries ls ∧
      ∀ c : Char, table'[c]? = ((lastImage? ls c).map Char.toString).or table[c]? := by
  induction entries generalizing table with
  | nil =>
    cases h
    exact ⟨[], .nil, fun c => rfl⟩
  | cons e rest ih =>
    rw [List.foldlM_cons] at h
    obtain ⟨table₁, he, hrest⟩ := exists_of_bind_eq_ok h
    rw [readEntry_eq] at he
    obtain ⟨l, hl, hadd⟩ := exists_of_bind_eq_ok he
    obtain ⟨ls, hls, hget⟩ := ih hrest
    refine ⟨l :: ls, .cons hl hls, fun c => ?_⟩
    rw [hget, getElem?_addTo (Listing.first_le_last_of_read hl) hadd, lastImage?_cons,
      Option.map_or, Option.or_assoc]

/-- The map of an accepted table maps what its entries list, and what they do not list is a
break. -/
theorem get?_ofTable {text : String} {m : CharMap} (h : ofTable text = .ok m) :
    ∃ ls, List.Forall₂ (fun e l => Listing.read e = .ok l) (tableEntries text.toList) ls ∧
      ∀ c, m.get? c = (lastImage? ls c).map Char.toString ∧
        m.isBreak c = (lastImage? ls c).isNone := by
  obtain ⟨listed, hlisted, hm⟩ := exists_of_bind_eq_ok h
  cases hm
  obtain ⟨ls, hls, hget⟩ := exists_listings hlisted
  have hget' (c : Char) :
      get? ⟨listed, .split⟩ c = (lastImage? ls c).map Char.toString := by
    rw [get?, hget]
    simp
  refine ⟨ls, hls, fun c => ⟨hget' c, ?_⟩⟩
  rw [isBreak, hget']
  cases lastImage? ls c with
  | none => rfl
  | some image => simp

/-- The map of an accepted table keeps exactly the characters that lie in the range of one of its
entries and are not left over there, and maps them to something. Left over is the last character of
a range that pairs up, if the range has an odd number of characters. -/
theorem kept_iff_listed {text : String} {m : CharMap} (h : ofTable text = .ok m) :
    ∃ ls, List.Forall₂ (fun e l => Listing.read e = .ok l) (tableEntries text.toList) ls ∧
      ∀ c, (m.isBreak c = false ↔ ∃ l ∈ ls, l.Spans c ∧ ¬ l.LeavesOver c) ∧
        (m.isBreak c = false ↔ ∃ image, m.get? c = some image ∧ image ≠ "") := by
  obtain ⟨ls, hls, hget⟩ := get?_ofTable h
  refine ⟨ls, hls, fun c => ⟨?_, ?_⟩⟩
  · have hsome : m.isBreak c = false ↔ ∃ l ∈ ls, (l.image? c).isSome = true := by
      rw [(hget c).2, Option.isNone_eq_false_iff, Option.isSome_iff_ne_none, Ne,
        lastImage?_eq_none_iff]
      simp [Option.isSome_iff_ne_none]
    simpa only [Listing.isSome_image?_iff] using hsome
  · rw [(hget c).2, (hget c).1]
    cases lastImage? ls c with
    | none => simp
    | some image => simp

/-- A range of three characters that pairs up leaves its last one over, which a later entry may
list, and which is a break otherwise. -/
theorem kept_iff_listed_left_over :
    ∃ m ls, ofTable "a..c/2, x..z/2, c->b" = .ok m ∧
      List.Forall₂ (fun e l => Listing.read e = .ok l)
        (tableEntries "a..c/2, x..z/2, c->b".toList) ls ∧
      (m.isBreak 'c' = false ↔ ∃ l ∈ ls, l.Spans 'c' ∧ ¬ l.LeavesOver 'c') ∧
      m.get? 'c' = some "b" ∧ m.isBreak 'z' = true := by
  obtain ⟨m, hm⟩ : ∃ m, ofTable "a..c/2, x..z/2, c->b" = .ok m := ⟨_, rfl⟩
  obtain ⟨ls, hls, hkept⟩ := kept_iff_listed hm
  have hc : (ofTable "a..c/2, x..z/2, c->b").toOption.map (·.get? 'c') = some (some "b") := by
    decide
  have hz : (ofTable "a..c/2, x..z/2, c->b").toOption.map (·.isBreak 'z') = some true := by
    decide
  rw [hm] at hc hz
  exact ⟨m, ls, hm, hls, (hkept 'c').1, Option.some.inj hc, Option.some.inj hz⟩

/-- The last of three characters that pair up lies in the range of its entry, and is a break. -/
theorem left_over_is_break :
    tableEntries "a..c/2".toList = ["a..c/2".toList] ∧
      (∃ l, Listing.read "a..c/2".toList = .ok l ∧ l.Spans 'c') ∧
      ∃ m, ofTable "a..c/2" = .ok m ∧ m.get? 'c' = none ∧ m.isBreak 'c' = true := by
  obtain ⟨m, hm⟩ : ∃ m, ofTable "a..c/2" = .ok m := ⟨_, rfl⟩
  have hget : (ofTable "a..c/2").toOption.map (·.get? 'c') = some none := by decide
  have hbreak : (ofTable "a..c/2").toOption.map (·.isBreak 'c') = some true := by decide
  rw [hm] at hget hbreak
  exact ⟨by decide, ⟨⟨97, 99, .pairs⟩, rfl, by decide⟩, m, hm, Option.some.inj hget,
    Option.some.inj hbreak⟩

end TextAnalysis.CharMap
