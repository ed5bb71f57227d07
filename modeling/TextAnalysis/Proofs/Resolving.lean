import TextAnalysis.Proofs.Overlapping
import TextAnalysis.Proofs.Text.Trimming

/-!
# Codes, names and regions

A language is resolved from its code or its name. White space around what is written and the case of
ASCII letters make no difference. A region behind a dash or underscore is passed over where a code is
looked for, but not where a name is: `en-US` is English, and `english-US` is no language. So what stands
in front of a region resolves as a code only (`Language.ofCode?_append_region`).

Main statement: `regions_are_ignored_behind_codes`.
-/

set_option autoImplicit false

namespace TextAnalysis

open Unicode (isWhite lowercaseAscii)

/-! ## Lower case -/

namespace Unicode

/-- The character is a letter of ASCII. -/
def IsAsciiLetter (c : Char) : Prop :=
  (65 ≤ c.toNat ∧ c.toNat ≤ 90) ∨ (97 ≤ c.toNat ∧ c.toNat ≤ 122)

/-- A property that no letter has does not depend on the case of a character. -/
theorem apply_lowercaseAscii {p : Char → Bool} (hp : ∀ c, IsAsciiLetter c → p c = false)
    (c : Char) : p (lowercaseAscii c) = p c := by
  unfold lowercaseAscii
  split
  · next h =>
    rw [Bool.and_eq_true, decide_eq_true_iff, decide_eq_true_iff] at h
    have hfirst : 65 ≤ c.toNat := h.1
    have hlast : c.toNat ≤ 90 := h.2
    have hlower : (Char.ofNat (c.toNat + 32)).toNat = c.toNat + 32 := by
      rw [Char.ofNat, dif_pos (.inl (by omega))]
      rfl
    rw [hp c (.inl ⟨hfirst, hlast⟩), hp _ (.inr ⟨by omega, by omega⟩)]
  · rfl

/-- A letter of ASCII is no white space. -/
theorem IsAsciiLetter.isWhite {c : Char} (h : IsAsciiLetter c) : isWhite c = false := by
  unfold IsAsciiLetter at h
  unfold Unicode.isWhite
  simp only [Bool.or_eq_false_iff, Bool.and_eq_false_iff, decide_eq_false_iff_not,
    beq_eq_false_iff_ne]
  omega

/-- Being white space does not depend on the case. -/
theorem isWhite_lowercaseAscii (c : Char) : isWhite (lowercaseAscii c) = isWhite c :=
  apply_lowercaseAscii (fun _ => IsAsciiLetter.isWhite) c

end Unicode

namespace Language

/-! ## What is written -/

/-- A region is marked by a hyphen or an underscore. -/
theorem isRegionMark_iff {c : Char} : isRegionMark c = true ↔ c = '-' ∨ c = '_' := by
  simp [isRegionMark]

/-- Being the mark of a region does not depend on the case. -/
theorem isRegionMark_lowercaseAscii (c : Char) :
    isRegionMark (lowercaseAscii c) = isRegionMark c := by
  refine Unicode.apply_lowercaseAscii (fun d hd => Bool.eq_false_iff.mpr fun hmark => ?_) c
  unfold Unicode.IsAsciiLetter at hd
  obtain rfl | rfl := isRegionMark_iff.mp hmark <;> exact absurd hd (by decide)

/-- The text in lower case, as codes and names are written. -/
def lowered (s : String) : List Char := s.toList.map lowercaseAscii

/-- White space is taken off before or after the case is changed. -/
theorem normalized_eq_trim_lowered (s : String) : normalized s = Text.trim (lowered s) :=
  (Text.trim_map Unicode.isWhite_lowercaseAscii s.toList).symm

/-- There is no white space around what is written, and no region in it. -/
structure IsPlain (s : String) : Prop where
  trimmed : Text.trim s.toList = s.toList
  noMark : ∀ c ∈ s.toList, isRegionMark c = false

/-- Plain writing is known by its characters. -/
theorem isPlain_iff {s : String} :
    IsPlain s ↔
      Text.trim s.toList = s.toList ∧ (s.toList.all fun c => !isRegionMark c) = true := by
  simp only [List.all_eq_true, Bool.not_eq_true']
  exact ⟨fun h => ⟨h.trimmed, h.noMark⟩, fun h => ⟨h.1, h.2⟩⟩

instance (s : String) : Decidable (IsPlain s) := decidable_of_iff' _ isPlain_iff

namespace IsPlain

variable {s : String}

/-- Plain writing is only put into lower case. -/
theorem normalized_eq (h : IsPlain s) : normalized s = lowered s := by
  rw [normalized, h.trimmed, lowered]

/-- There is no region in it in lower case either. -/
theorem noMark_lowered (h : IsPlain s) : ∀ c ∈ lowered s, (!isRegionMark c) = true := by
  intro c hc
  obtain ⟨d, hd, rfl⟩ := List.mem_map.mp hc
  rw [isRegionMark_lowercaseAscii, h.noMark d hd]
  rfl

/-- White space behind a region is taken off, and the region stays. -/
theorem normalized_append_region (h : IsPlain s) {mark : Char} (hmark : isRegionMark mark = true)
    (r : String) :
    ∃ rest, normalized (s ++ String.singleton mark ++ r) = lowered s ++ mark :: rest := by
  have hkept : isWhite mark = false ∧ lowercaseAscii mark = mark := by
    obtain rfl | rfl := isRegionMark_iff.mp hmark <;> decide
  have hfirst := (Text.trims_trim s.toList).first
  rw [h.trimmed] at hfirst
  obtain ⟨rest, hrest⟩ := @Text.trim_append_cons mark s.toList r.toList hkept.1 hfirst
  refine ⟨rest.map lowercaseAscii, ?_⟩
  rw [normalized, String.toList_append, String.toList_append, String.toList_singleton,
    List.append_assoc, List.singleton_append, hrest, List.map_append, List.map_cons, hkept.2,
    lowered]

end IsPlain

/-! ## The language that is found -/

/-- No two languages share a code or a name. -/
theorem eq_of_shared {l l' : Language}
    (h : l.code = l'.code ∨ l.name = l'.name ∨ l.code = l'.name) : l = l' := by
  have hdistinct : ∀ l ∈ all, ∀ l' ∈ all,
      l.code = l'.code ∨ l.name = l'.name ∨ l.code = l'.name → l = l' := by decide
  exact hdistinct l (mem_all l) l' (mem_all l') h

/-- No language has its code for a name. -/
theorem code_ne_name (l : Language) : l.code ≠ l.name := by
  cases l <;> decide

/-- No name has the mark of a region in it. -/
theorem not_isRegionMark_of_mem_name {l : Language} {c : Char} (h : c ∈ l.name.toList) :
    isRegionMark c = false := by
  have hname : (l.name.toList.all fun c => !isRegionMark c) = true := by cases l <;> decide
  simpa using List.all_eq_true.mp hname c h

/-- The language that is found has what is written for its name, or the part before the region for its
code. -/
theorem ofCode?_eq_some_iff {s : String} {l : Language} :
    ofCode? s = some l ↔
      l.code.toList = ((normalized s).takeWhile fun c => !isRegionMark c) ∨
        l.name.toList = normalized s := by
  let base := (normalized s).takeWhile fun c => !isRegionMark c
  -- a name has no region, so where one is written it is the part before the region as well
  have hbase {l : Language} (h : l.name.toList = normalized s) : l.name.toList = base := by
    have hname : ∀ c ∈ l.name.toList, (!isRegionMark c) = true :=
      fun c hc => by rw [not_isRegionMark_of_mem_name hc]; rfl
    rw [h] at hname ⊢
    exact (List.takeWhile_eq_self_iff.mpr hname).symm
  have hunique {l l' : Language} (h : l.code.toList = base ∨ l.name.toList = normalized s)
      (h' : l'.code.toList = base ∨ l'.name.toList = normalized s) : l = l' := by
    rcases h with h | h <;> rcases h' with h' | h'
    · exact eq_of_shared (.inl (String.toList_inj.mp (h.trans h'.symm)))
    · exact eq_of_shared (.inr (.inr (String.toList_inj.mp (h.trans (hbase h').symm))))
    · exact (eq_of_shared (.inr (.inr (String.toList_inj.mp (h'.trans (hbase h).symm))))).symm
    · exact eq_of_shared (.inr (.inl (String.toList_inj.mp (h.trans h'.symm))))
  have hfound {l : Language} (h : ofCode? s = some l) :
      l.code.toList = base ∨ l.name.toList = normalized s := by
    simpa using List.find?_some h
  refine ⟨hfound, fun h => ?_⟩
  cases hnone : ofCode? s with
  | none =>
    have hmissed := List.find?_eq_none.mp hnone l (mem_all l)
    exact absurd h (by simpa using hmissed)
  | some l' => rw [hunique (hfound hnone) h]

variable {s s' : String}

/-- What has neither white space around it nor a region is the code of a language, or its name. -/
theorem IsPlain.ofCode?_eq_some_iff (h : IsPlain s) {l : Language} :
    ofCode? s = some l ↔ l.code.toList = lowered s ∨ l.name.toList = lowered s := by
  rw [Language.ofCode?_eq_some_iff, h.normalized_eq, List.takeWhile_eq_self_iff.mpr h.noMark_lowered]

/-- In front of a region only codes are looked for. -/
theorem IsPlain.ofCode?_append_region (h : IsPlain s) {mark : Char}
    (hmark : isRegionMark mark = true) (r : String) {l : Language} :
    ofCode? (s ++ String.singleton mark ++ r) = some l ↔ l.code.toList = lowered s := by
  obtain ⟨rest, hrest⟩ := h.normalized_append_region hmark r
  have hname : l.name.toList ≠ lowered s ++ mark :: rest := by
    intro hname
    have hmem : mark ∈ l.name.toList := hname ▸ List.mem_append_cons_self
    rw [not_isRegionMark_of_mem_name hmem] at hmark
    cases hmark
  rw [Language.ofCode?_eq_some_iff, hrest, List.takeWhile_append_of_pos h.noMark_lowered,
    List.takeWhile_cons_of_neg (by simp [hmark]), List.append_nil, or_iff_left hname]

/-- A region makes no difference behind a code, nor behind what is not known at all. -/
theorem IsPlain.ofCode?_append_region_eq_iff (h : IsPlain s) {mark : Char}
    (hmark : isRegionMark mark = true) (r : String) :
    ofCode? (s ++ String.singleton mark ++ r) = ofCode? s ↔
      ∀ l : Language, l.name.toList ≠ lowered s := by
  constructor
  · intro heq l hname
    have hfound := h.ofCode?_eq_some_iff.mpr (.inr hname)
    have hcode := (h.ofCode?_append_region hmark r).mp (heq.trans hfound)
    exact l.code_ne_name (String.toList_inj.mp (hcode.trans hname.symm))
  · intro hname
    refine Option.ext fun l => ?_
    rw [h.ofCode?_append_region hmark r, h.ofCode?_eq_some_iff, or_iff_left (hname l)]

/-- The language depends on what is left of the writing once it is normalized. -/
theorem ofCode?_congr (h : normalized s = normalized s') : ofCode? s = ofCode? s' := by
  unfold ofCode?
  rw [h]

/-- White space around what is written makes no difference. -/
theorem normalized_append_white {front back : String} (hfront : ∀ c ∈ front.toList, isWhite c = true)
    (hback : ∀ c ∈ back.toList, isWhite c = true) (s : String) :
    normalized (front ++ s ++ back) = normalized s := by
  rw [normalized, String.toList_append, String.toList_append, Text.trim_append_white hfront hback,
    normalized]

/-- Neither does the case of ASCII letters. -/
theorem normalized_of_lowered_eq (h : lowered s = lowered s') : normalized s = normalized s' := by
  rw [normalized_eq_trim_lowered, normalized_eq_trim_lowered, h]

end Language

/-! ## What the language is needed for -/

open TextAnalysis.Language

/-- The stem filter depends on the language alone. -/
theorem StemFilter.ofLanguage?_congr {s s' : String} (h : ofCode? s = ofCode? s') :
    ofLanguage? s = ofLanguage? s' := by
  unfold ofLanguage?
  rw [h]

/-- The preset of a language depends on the language, and not on how it is written. -/
theorem LanguagePreset.alike_of_ofCode?_eq {s s' : String} (h : ofCode? s = ofCode? s')
    (preset : LanguagePreset) :
    (build { preset with language := s }).Alike (fun p q => p.same q = true)
      (build { preset with language := s' }) := by
  refine .bind (alike_lowercaseWords_renamed _ _ _ _) fun p q hpq => ?_
  dsimp only
  rw [StopFilter.ofLanguage?_congr h, StemFilter.ofLanguage?_congr h]
  refine .onlyIf Iff.rfl (.debug _) (.bind (StemFilter.alike_ofLanguage? _) fun f g hfg => ?_)
  have hnone : f.isNone = g.isNone := by cases hfg <;> rfl
  refine .onlyIf (by rw [hnone]) (.debug _) (.pure ?_)
  have hsettings : p.settings = q.settings :=
    Pipeline.settings_eq_iff.mpr ⟨hpq.1, by rw [hpq.2]⟩
  have hstop : Option.Rel (fun f g => f.settings = g.settings)
      ((StopFilter.ofLanguage? s').map Filter.stop)
      ((StopFilter.ofLanguage? s').map Filter.stop) := by
    cases StopFilter.ofLanguage? s' with
    | none => exact .none
    | some _ => exact .some rfl
  rw [Pipeline.same_iff]
  refine Pipeline.settings_addFilter? (Pipeline.settings_addFilter? hsettings hstop) ?_
  cases hfg with
  | none => exact .none
  | some hstem =>
    have hignored := StemFilter.settings_ignoring hstem preset.ignored.toList
    exact .some (congrArg Filter.stem hignored)

/-- Wherever a language is written, one may be written for the other. -/
structure Language.SameResources (s s' : String) : Prop where
  language : ofCode? s = ofCode? s'
  stopWords : StopFilter.ofLanguage? s = StopFilter.ofLanguage? s'
  stemmer : StemFilter.ofLanguage? s = StemFilter.ofLanguage? s'
  preset : ∀ preset : LanguagePreset,
    (LanguagePreset.build { preset with language := s }).Alike (fun p q => p.same q = true)
      (LanguagePreset.build { preset with language := s' })

/-- The same resources are found exactly where the same language is. -/
theorem Language.sameResources_iff {s s' : String} :
    SameResources s s' ↔ ofCode? s = ofCode? s' :=
  ⟨fun h => h.language, fun h => ⟨h, StopFilter.ofLanguage?_congr h, StemFilter.ofLanguage?_congr h,
    LanguagePreset.alike_of_ofCode?_eq h⟩⟩

/-- Let there be no white space around what is written, and no region in it. Then it is the code of a
language, or its name, but in front of a region it is only taken for a code. So a region changes
nothing, wherever a language is asked for, if and only if what stands in front of it is no name. White
space around what is written and the case of ASCII letters never change anything. -/
theorem regions_are_ignored_behind_codes (s : String) :
    (IsPlain s →
      (∀ l, ofCode? s = some l ↔ l.code.toList = lowered s ∨ l.name.toList = lowered s) ∧
      ∀ (mark : Char) (r : String), isRegionMark mark = true →
        (∀ l, ofCode? (s ++ String.singleton mark ++ r) = some l ↔ l.code.toList = lowered s) ∧
        (SameResources (s ++ String.singleton mark ++ r) s ↔
          ∀ l : Language, l.name.toList ≠ lowered s)) ∧
    (∀ front back : String, (∀ c ∈ front.toList, isWhite c = true) →
      (∀ c ∈ back.toList, isWhite c = true) → SameResources (front ++ s ++ back) s) ∧
    ∀ s' : String, lowered s = lowered s' → SameResources s s' := by
  refine ⟨fun hs => ⟨fun l => hs.ofCode?_eq_some_iff, fun mark r hmark => ⟨fun l => ?_, ?_⟩⟩, ?_, ?_⟩
  · exact hs.ofCode?_append_region hmark r
  · rw [sameResources_iff]
    exact hs.ofCode?_append_region_eq_iff hmark r
  · intro front back hfront hback
    exact sameResources_iff.mpr (ofCode?_congr (normalized_append_white hfront hback s))
  · intro s' h
    exact sameResources_iff.mpr (ofCode?_congr (normalized_of_lowered_eq h))

/-- A code of Portuguese in mixed case, with a region and with white space around it. -/
theorem regions_are_ignored_behind_codes_portuguese :
    IsPlain "pT" ∧ isRegionMark '_' = true ∧ (∀ l : Language, l.name.toList ≠ lowered "pT") ∧
      ofCode? "pT_BR " = some .portuguese ∧ SameResources "pT_BR " "pT" ∧
      (∀ c ∈ "\t".toList, isWhite c = true) ∧ (∀ c ∈ "\u00A0".toList, isWhite c = true) ∧
      SameResources "\tpT\u00A0" "pT" ∧ lowered "pT" = lowered "Pt" ∧ SameResources "pT" "Pt" := by
  have hplain : IsPlain "pT" := by decide
  have hmark : isRegionMark '_' = true := rfl
  have hname : ∀ l : Language, l.name.toList ≠ lowered "pT" := by
    intro l
    cases l <;> decide
  have hfront : ∀ c ∈ "\t".toList, isWhite c = true := List.all_eq_true.mp (by decide)
  have hback : ∀ c ∈ "\u00A0".toList, isWhite c = true := List.all_eq_true.mp (by decide)
  have hcase : lowered "pT" = lowered "Pt" := by decide
  obtain ⟨hregion, hwhite, hlowered⟩ := regions_are_ignored_behind_codes "pT"
  obtain ⟨hcode, hsame⟩ := (hregion hplain).2 '_' "BR " hmark
  exact ⟨hplain, hmark, hname, (hcode .portuguese).mpr (by decide), hsame.mpr hname, hfront, hback,
    hwhite "\t" "\u00A0" hfront hback, hcase, hlowered "Pt" hcase⟩

/-- The name of a language in front of a region is not known. -/
theorem region_behind_name_is_unknown :
    IsPlain "english" ∧ isRegionMark '-' = true ∧ ofCode? "english" = some .english ∧
      ofCode? ("english" ++ String.singleton '-' ++ "US") = none := by
  decide

end TextAnalysis
