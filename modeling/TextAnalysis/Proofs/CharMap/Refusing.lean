import TextAnalysis.Proofs.CharMap.Spelling

/-!
# Refused character tables

A table is refused if one of its entries cannot be spelled, or is spelled but makes no sense: if a
range goes downwards, if the ranges around an arrow are not equally long, or if a range holds a code
point that is no character (`malformed_entry_is_refused`). Readers let pass two kinds of entries
that are not well-formed by these rules: a numeral may have a sign of its own, and the code point
that is left over at the end of a range that pairs up is never looked at
(`malformed_entries_are_accepted`).
-/

set_option autoImplicit false

namespace TextAnalysis.CharMap

/-! ## Well-formed entries -/

namespace Shape

/-- Is it the last code point of a range that pairs up and has an odd number of them? It has 32 bits
at most. -/
def LeavesOver : Shape → Nat → Prop
  | pairs r, code => code = r.last ∧ (r.last - r.first) % 2 = 0 ∧ code < 4294967296
  | _, _ => False

/-- The entry makes sense: its ranges go upwards, are equally long, and hold characters only.
Lenient readers do not look at a code point that is left over. -/
structure IsSound (lenient : Bool) (s : Shape) : Prop where
  ordered : ∀ r ∈ s.ranges, r.first ≤ r.last
  equal : ∀ r ∈ s.ranges, ∀ r' ∈ s.ranges, r.last - r.first = r'.last - r'.first
  valid : ∀ r ∈ s.ranges, ∀ code, r.first ≤ code → code ≤ r.last →
    (lenient = true → ¬ s.LeavesOver code) → code.isValidChar

end Shape

/-- The text spells an entry that makes sense. -/
def WellFormed (lenient : Bool) (text : List Char) : Prop :=
  (∃ s, Spells lenient s text) ∧ ∀ s, Spells lenient s text → s.IsSound lenient

/-! ## What is listed are characters -/

/-- A range that could be listed has valid code points and valid images. -/
theorem isValidChar_of_listRange {entry : List Char} {table table' : Std.ExtTreeMap Char String}
    {first image count : Nat} (h : listRange entry table first image count = .ok table') :
    ∀ k < count, (first + k).isValidChar ∧ (image + k).isValidChar := by
  induction count generalizing table first image with
  | zero => exact fun k hk => absurd hk (Nat.not_lt_zero k)
  | succ count ih =>
    obtain ⟨hfirst, himage, hrest⟩ := listRange_succ_eq_ok_iff.mp h
    intro k hk
    cases k with
    | zero => exact ⟨hfirst, himage⟩
    | succ k =>
      have hnext := ih hrest k (by omega)
      rwa [Nat.add_assoc, Nat.add_assoc, Nat.add_comm 1 k] at hnext

/-- Pairs that could be listed are of valid code points. -/
theorem isValidChar_of_listPairs {entry : List Char} {table table' : Std.ExtTreeMap Char String}
    {first count : Nat} (h : listPairs entry table first count = .ok table') :
    ∀ k < 2 * count, (first + k).isValidChar := by
  induction count generalizing table first with
  | zero => exact fun k hk => absurd hk (Nat.not_lt_zero k)
  | succ count ih =>
    obtain ⟨hsecond, hfirst, hrest⟩ := listPairs_succ_eq_ok_iff.mp h
    intro k hk
    match k with
    | 0 => exact hfirst
    | 1 => exact hsecond
    | k + 2 =>
      have hnext := ih hrest k (by omega)
      rwa [Nat.add_assoc, Nat.add_comm 2 k] at hnext

/-- What is read of hexadecimal digits has 32 bits. -/
theorem lt_of_hexValue {value n : Nat} {digits : List Char} (h : hexValue value digits = .ok n)
    (hvalue : value < 4294967296) : n < 4294967296 := by
  induction digits generalizing value with
  | nil => exact Except.ok.inj h ▸ hvalue
  | cons c rest ih =>
    rw [hexValue] at h
    split at h
    · cases h
    · split at h
      · next hfits => exact ih h hfits
      · cases h

/-- So has what is read of a numeral. -/
theorem lt_of_readHexNumeral {text : List Char} {n : Nat} (h : readHexNumeral text = .ok n) :
    n < 4294967296 := by
  unfold readHexNumeral at h
  split at h
  · cases h
  · cases h
  · exact lt_of_hexValue h (by decide)
  · exact lt_of_hexValue h (by decide)

/-- Code points that are read have 32 bits. -/
theorem lt_of_readCode {entry item : List Char} {code : Nat} (h : readCode entry item = .ok code) :
    code < 4294967296 := by
  unfold readCode at h
  split at h
  · split at h
    · next n hread => exact Except.ok.inj h ▸ lt_of_readHexNumeral hread
    · cases h
  · split at h
    · next c _ => exact Except.ok.inj h ▸ c.val.toNat_lt
    · cases h

/-- The ends of a range have 32 bits. -/
theorem lt_of_readRange {entry item : List Char} {first last : Nat}
    (h : readRange entry item = .ok (first, last)) : last < 4294967296 := by
  obtain ⟨-, ⟨_, _, -, -, hcode⟩ | ⟨-, hcode, rfl⟩⟩ := readRange_cases h
  · exact lt_of_readCode hcode
  · exact lt_of_readCode hcode

/-- The last code point of a listing has 32 bits. -/
theorem last_lt_of_read {entry : List Char} {l : Listing} (h : Listing.read entry = .ok l) :
    l.last < 4294967296 := by
  obtain ⟨item, hread⟩ := Listing.exists_readRange h
  exact lt_of_readRange hread

/-- Where an entry has been listed, its ranges hold characters only, but for one that is left
over. -/
theorem Shape.isValidChar_of_addTo {entry : List Char} {table table' : Std.ExtTreeMap Char String}
    {s : Shape} (hadd : s.listing.addTo entry table = .ok table')
    (hequal : ∀ r ∈ s.ranges, ∀ r' ∈ s.ranges, r.last - r.first = r'.last - r'.first)
    (hlt : s.listing.last < 4294967296) :
    ∀ r ∈ s.ranges, ∀ code, r.first ≤ code → code ≤ r.last → ¬ s.LeavesOver code →
      code.isValidChar := by
  intro r hr code hfirst hlast hleft
  have hcode : r.first + (code - r.first) = code := by omega
  cases s with
  | same r' =>
    obtain rfl : r = r' := List.mem_singleton.mp hr
    have hvalid := isValidChar_of_listRange hadd (code - r.first) (by dsimp only [listing]; omega)
    rw [← hcode]
    exact hvalid.1
  | onto source target =>
    have hsize := hequal r hr source (by simp [ranges])
    have hvalid := isValidChar_of_listRange hadd (code - r.first) (by dsimp only [listing]; omega)
    rw [← hcode]
    rcases List.mem_pair.mp hr with rfl | rfl
    · exact hvalid.1
    · exact hvalid.2
  | pairs r' =>
    obtain rfl : r = r' := List.mem_singleton.mp hr
    have hodd : ¬ (code = r.last ∧ (r.last - r.first) % 2 = 0 ∧ code < 4294967296) := hleft
    have hlt : r.last < 4294967296 := hlt
    have hvalid := isValidChar_of_listPairs hadd (code - r.first) (by dsimp only [listing]; omega)
    rw [← hcode]
    exact hvalid

/-! ## Tables -/

/-- An entry that is accepted is well-formed for a lenient reader. -/
theorem wellFormed_of_readEntry {entry : List Char} {table table' : Std.ExtTreeMap Char String}
    (h : readEntry table entry = .ok table') (htight : Tight entry) (hline : '\n' ∉ entry) :
    WellFormed true entry := by
  rw [readEntry_eq] at h
  obtain ⟨l, hread, hadd⟩ := exists_of_bind_eq_ok h
  refine ⟨exists_spells_of_read hread htight hline, fun s hs => ?_⟩
  obtain ⟨rfl, hordered, hequal⟩ := hs.eq_listing hread
  have hvalid := Shape.isValidChar_of_addTo hadd hequal (last_lt_of_read hread)
  exact ⟨hordered, hequal, fun r hr code hfirst hlast hleft =>
    hvalid r hr code hfirst hlast (hleft rfl)⟩

/-- Each of the entries of a table has been read. -/
theorem exists_readEntry_of_foldlM {entries : List (List Char)} {entry : List Char}
    {table table' : Std.ExtTreeMap Char String} (h : entries.foldlM readEntry table = .ok table')
    (hentry : entry ∈ entries) : ∃ before behind, readEntry before entry = .ok behind := by
  induction entries generalizing table with
  | nil => cases hentry
  | cons e rest ih =>
    rw [List.foldlM_cons] at h
    obtain ⟨table₁, he, hrest⟩ := exists_of_bind_eq_ok h
    rcases List.mem_cons.mp hentry with rfl | hentry
    · exact ⟨table, table₁, he⟩
    · exact ih hrest hentry

/-- The parts of a text consist of its characters other than the separator. -/
theorem mem_and_ne_of_mem_splitOn {separator c : Char} {text part : List Char}
    (h : part ∈ text.splitOn separator) (hc : c ∈ part) : c ∈ text ∧ c ≠ separator := by
  induction text generalizing part with
  | nil =>
    rw [List.splitOn_nil, List.mem_singleton] at h
    rw [h] at hc
    cases hc
  | cons d rest ih =>
    have hgrow {part : List Char} (h : part ∈ rest.splitOn separator) (hc : c ∈ part) :
        c ∈ d :: rest ∧ c ≠ separator :=
      ⟨List.mem_cons_of_mem d (ih h hc).1, (ih h hc).2⟩
    rw [List.splitOn_cons_eq_if_modifyHead] at h
    split at h
    · rcases List.mem_cons.mp h with rfl | h
      · cases hc
      · exact hgrow h hc
    · next hd =>
      obtain ⟨first, parts, hparts⟩ := List.exists_cons_of_ne_nil (rest.splitOn_ne_nil separator)
      rw [hparts, List.modifyHead_cons] at h
      rcases List.mem_cons.mp h with rfl | h
      · rcases List.mem_cons.mp hc with rfl | hc
        · exact ⟨List.mem_cons_self, by simpa using hd⟩
        · exact hgrow (by simp [hparts]) hc
      · exact hgrow (by simp [hparts, h]) hc

/-- Entries are trimmed, and stand on one line. -/
theorem tight_of_mem_tableEntries {table entry : List Char} (h : entry ∈ tableEntries table) :
    Tight entry ∧ '\n' ∉ entry := by
  rw [tableEntries, List.mem_filter, List.mem_map] at h
  obtain ⟨⟨part, hpart, rfl⟩, hne⟩ := h
  refine ⟨tight_trim (by simpa using hne), fun hmem => ?_⟩
  obtain ⟨kept, hkept, hpart⟩ := List.mem_flatMap.mp hpart
  obtain ⟨line, hline, rfl⟩ := List.mem_map.mp hkept
  have hmem := (mem_and_ne_of_mem_splitOn hpart (mem_of_mem_trim hmem)).1
  exact (mem_and_ne_of_mem_splitOn hline ((List.takeWhile_sublist _).mem hmem)).2 rfl

/-- A table is refused if one of its entries is not well-formed, where a sign in front of digits and
a code point that is left over do not count. -/
theorem malformed_entry_is_refused {table : String} {entry : List Char}
    (hentry : entry ∈ tableEntries table.toList) (h : ¬ WellFormed true entry) :
    ∃ fault, ofTable table = .error fault ∧
      (Failure.stage (.table fault)).message = "Analysis error: " ++ fault.message := by
  cases htable : ofTable table with
  | error fault => exact ⟨fault, rfl, rfl⟩
  | ok m =>
    obtain ⟨listed, hlisted, -⟩ := exists_of_bind_eq_ok htable
    obtain ⟨before, behind, hread⟩ := exists_readEntry_of_foldlM hlisted hentry
    obtain ⟨htight, hline⟩ := tight_of_mem_tableEntries hentry
    exact absurd (wellFormed_of_readEntry hread htight hline) h

/-- An entry of a table whose range is reversed, between one that is in order and a comment. -/
theorem malformed_entry_is_refused_reversed :
    "z..a".toList ∈ tableEntries "0..9, z..a # letters".toList ∧
      ∃ fault, ofTable "0..9, z..a # letters" = .error fault := by
  have hentry : "z..a".toList ∈ tableEntries "0..9, z..a # letters".toList := by decide
  have hfirst : SpellsCode true 'z'.toNat ['z'] := .itself (by decide)
  have hlast : SpellsCode true 'a'.toNat ['a'] := .itself (by decide)
  have hspells : Spells true (.same ⟨'z'.toNat, 'a'.toNat⟩) "z..a".toList :=
    .same (.span hfirst hlast isBlank_nil isBlank_nil)
  have hmalformed : ¬ WellFormed true "z..a".toList := fun h =>
    absurd ((h.2 _ hspells).ordered _ (List.mem_singleton.mpr rfl)) (by decide)
  obtain ⟨fault, hfault, -⟩ := malformed_entry_is_refused hentry hmalformed
  exact ⟨hentry, fault, hfault⟩

/-- Without separators, what spells an entry spells a code point. -/
theorem Spells.exists_spellsCode {lenient : Bool} {s : Shape} {text : List Char}
    (h : Spells lenient s text) (hdot : '.' ∉ text) (hdash : '-' ∉ text)
    (hslash : '/' ∉ text) : ∃ code, SpellsCode lenient code text := by
  cases h with
  | same h =>
    cases h with
    | one h => exact ⟨_, h⟩
    | span => exact absurd (by simp) hdot
  | onto => exact absurd (by simp) hdash
  | pairs => exact absurd (by simp) hslash

/-- Two entries that are not well-formed are accepted: digits with a sign of their own, and a
surrogate that is left over. -/
theorem malformed_entries_are_accepted :
    ("U++41".toList ∈ tableEntries "U++41".toList ∧ ¬ WellFormed false "U++41".toList ∧
      ∃ m, ofTable "U++41" = .ok m ∧ m.get? 'A' = some "A") ∧
    ("U+D800/2".toList ∈ tableEntries "U+D800/2".toList ∧ ¬ WellFormed false "U+D800/2".toList ∧
      ∃ m, ofTable "U+D800/2" = .ok m) := by
  refine ⟨⟨by decide, fun h => ?_, ?_⟩, by decide, fun h => ?_, _, rfl⟩
  · obtain ⟨⟨s, hs⟩, -⟩ := h
    obtain ⟨code, hcode⟩ := hs.exists_spellsCode (by decide) (by decide) (by decide)
    generalize htext : "U++41".toList = text at hcode
    cases hcode with
    | itself hc => cases htext
    | @numeral sign code digits hsign hne hnumber =>
      obtain ⟨-, rfl⟩ : 'U' = sign ∧ ['+', '4', '1'] = digits := by simpa using htext
      cases (hexNumber?_plus _).symm.trans hnumber
    | signed hlenient => cases hlenient
  · obtain ⟨m, hm⟩ : ∃ m, ofTable "U++41" = .ok m := ⟨_, rfl⟩
    have hget : (ofTable "U++41").toOption.map (·.get? 'A') = some (some "A") := by decide
    rw [hm] at hget
    exact ⟨m, hm, Option.some.inj hget⟩
  · have hcode : SpellsCode false 55296 "U+D800".toList :=
      .numeral (.inl rfl) (List.cons_ne_nil _ _) rfl
    have hspells : Spells false (.pairs ⟨55296, 55296⟩) "U+D800/2".toList :=
      .pairs (.one hcode) isBlank_nil
    have hvalid := (h.2 _ hspells).valid _ (List.mem_singleton.mpr rfl) 55296
      (Nat.le_refl _) (Nat.le_refl _) nofun
    exact absurd hvalid (by decide)

end TextAnalysis.CharMap
