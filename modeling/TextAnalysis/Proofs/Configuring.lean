import TextAnalysis.Number.Saturating
import TextAnalysis.Proofs.Json.Decoding
import TextAnalysis.Proofs.Json.Rereading
import TextAnalysis.Proofs.Rebuilding

/-!
# Configurations that come back

A configuration is written as a text and read back. What is written has every field, so everything
comes back; and where fields have been left out of the written object, of its preset or of its
options, they come back with their usual values and all others as they were.

Main statement: `configurations_come_back`.
-/

set_option autoImplicit false

namespace TextAnalysis

open Json (Column Decoder)

/-! ## Fields that are left out -/

/-- The options with the usual values in the fields left out. -/
def Options.without (deleted : String → Bool) (o : Options) : Options :=
  let usual : Options := {}
  { positions := if deleted "positions" then usual.positions else o.positions
    offsets := if deleted "chars" then usual.offsets else o.offsets
    keepUnfiltered := if deleted "keep_original" then usual.keepUnfiltered else o.keepUnfiltered
    removeStopped := if deleted "remove_stopwords" then usual.removeStopped else o.removeStopped
    firstPosition := if deleted "start_pos" then usual.firstPosition else o.firstPosition
    firstOffset := if deleted "start_char" then usual.firstOffset else o.firstOffset
    mode := if deleted "mode" then usual.mode else o.mode
    tokenize := if deleted "tokenize" then usual.tokenize else o.tokenize
    keepForms := if deleted "skip_morphological" then usual.keepForms else o.keepForms
    attributes := if deleted "attributes" then usual.attributes else o.attributes }

/-- The keyword preset with the deleted settings at their defaults. -/
def KeywordPreset.without (deleted : String → Bool) (s : KeywordPreset) : KeywordPreset :=
  let usual : KeywordPreset := {}
  { lowercase := if deleted "lowercase" then usual.lowercase else s.lowercase
    commas := if deleted "commas" then usual.commas else s.commas }

/-- The simple preset with the deleted settings at their defaults. -/
def SimplePreset.without (deleted : String → Bool) (s : SimplePreset) : SimplePreset :=
  let usual : SimplePreset := {}
  { expression := if deleted "expression" then usual.expression else s.expression
    gaps := if deleted "gaps" then usual.gaps else s.gaps }

/-- The standard preset with the deleted settings at their defaults. -/
def StandardPreset.without (deleted : String → Bool) (s : StandardPreset) : StandardPreset :=
  let usual : StandardPreset := {}
  { expression := if deleted "expression" then usual.expression else s.expression
    gaps := if deleted "gaps" then usual.gaps else s.gaps
    stopWords := if deleted "stop_words" then usual.stopWords else s.stopWords
    minSize := if deleted "min_size" then usual.minSize else s.minSize
    maxSize := if deleted "max_size" then usual.maxSize else s.maxSize }

/-- The stemming preset with the deleted settings at their defaults. -/
def StemmingPreset.without (deleted : String → Bool) (s : StemmingPreset) : StemmingPreset :=
  let usual : StemmingPreset := {}
  { expression := if deleted "expression" then usual.expression else s.expression
    gaps := if deleted "gaps" then usual.gaps else s.gaps
    stopWords := if deleted "stop_words" then usual.stopWords else s.stopWords
    minSize := if deleted "min_size" then usual.minSize else s.minSize
    maxSize := if deleted "max_size" then usual.maxSize else s.maxSize
    language := if deleted "language" then usual.language else s.language
    ignored := if deleted "ignore" then usual.ignored else s.ignored
    cacheSize := if deleted "cache_size" then usual.cacheSize else s.cacheSize
    custom := s.custom }

/-- The language preset with the deleted settings at their defaults. -/
def LanguagePreset.without (deleted : String → Bool) (s : LanguagePreset) : LanguagePreset :=
  let usual : LanguagePreset := {}
  { language := if deleted "language" then usual.language else s.language
    expression := if deleted "expression" then usual.expression else s.expression
    gaps := if deleted "gaps" then usual.gaps else s.gaps
    ignored := if deleted "ignore" then usual.ignored else s.ignored }

/-- The preset with the usual settings in the fields left out. -/
def Preset.without (deleted : String → Bool) : Preset → Preset
  | keyword s => keyword (s.without deleted)
  | simple s => simple (s.without deleted)
  | standard s => standard (s.without deleted)
  | stemming s => stemming (s.without deleted)
  | language s => language (s.without deleted)

namespace Json

/-- An object without some of its members. -/
def without (deleted : String → Bool) : Json → Json
  | object members => object (members.filter fun m => !deleted m.1)
  | j => j

/-- An object with a change to the value of one of its members. -/
def within (name : String) (change : Json → Json) : Json → Json
  | object members => object (members.map fun m => if m.1 = name then (m.1, change m.2) else m)
  | j => j

/-- Leaving nothing out changes nothing. -/
theorem without_none (j : Json) : j.without (fun _ => false) = j := by
  cases j <;> simp [without]

end Json

/-- Which fields are left out of a configuration, of its options and of its preset. The name of the
preset is no field. -/
structure Config.Deletion where
  config : String → Bool
  options : String → Bool
  preset : String → Bool
  keepsName : preset "type" = false

namespace Config.Deletion

/-- Leaves the fields out of the written object. -/
def run (d : Deletion) (j : Json) : Json :=
  ((j.within "analyzer" (Json.without d.preset)).within "options" (Json.without d.options)).without
    d.config

/-- The configuration with the usual values in the fields left out. -/
def restore (d : Deletion) (c : Config) : Config :=
  let usual : Config := {}
  { preset := if d.config "analyzer" then usual.preset else c.preset.without d.preset
    options := if d.config "options" then usual.options else c.options.without d.options }

end Config.Deletion

/-! ## Columns -/

namespace Options

/-- The settings of options, in the order in which they are written. -/
def columns : List (Column Options) :=
  [.opt "positions" Decoder.truth positions (fun o b => { o with positions := b }) fun _ => rfl,
   .opt "chars" Decoder.truth offsets (fun o b => { o with offsets := b }) fun _ => rfl,
   .opt "keep_original" Decoder.truth keepUnfiltered (fun o b => { o with keepUnfiltered := b })
     fun _ => rfl,
   .opt "remove_stopwords" Decoder.truth removeStopped (fun o b => { o with removeStopped := b })
     fun _ => rfl,
   .opt "start_pos" Decoder.count firstPosition (fun o n => { o with firstPosition := n })
     fun _ => rfl,
   .opt "start_char" Decoder.count firstOffset (fun o n => { o with firstOffset := n })
     fun _ => rfl,
   .opt "mode" Decoder.text mode (fun o s => { o with mode := s }) fun _ => rfl,
   .opt "tokenize" Decoder.truth tokenize (fun o b => { o with tokenize := b }) fun _ => rfl,
   .opt "skip_morphological" Decoder.truth keepForms (fun o b => { o with keepForms := b })
     fun _ => rfl,
   .opt "attributes" Decoder.textMap attributes (fun o a => { o with attributes := a })
     fun _ => rfl]

/-- No two columns have the same name. -/
theorem names_columns : (columns.map Column.name).Nodup := by decide

/-- The members of written options hold their values. -/
theorem holds_columns (o : Options) : List.Forall₂ (Column.Holds o) o.toJson.members columns :=
  .cons ⟨rfl, rfl⟩ <| .cons ⟨rfl, rfl⟩ <| .cons ⟨rfl, rfl⟩ <| .cons ⟨rfl, rfl⟩ <|
    .cons ⟨rfl, Json.decode_count _⟩ <| .cons ⟨rfl, Json.decode_count _⟩ <| .cons ⟨rfl, rfl⟩ <|
    .cons ⟨rfl, rfl⟩ <| .cons ⟨rfl, rfl⟩ <| .cons ⟨rfl, Attributes.decode_toJson _⟩ .nil

/-- Filling the columns that are not left out gives the options without those that are. -/
theorem foldl_columns (o : Options) (deleted : String → Bool) :
    columns.foldl (fun base c => c.fill deleted o base) {} = o.without deleted := by
  simp only [columns, List.foldl_cons, List.foldl_nil, Column.fill_eq]
  rfl

/-- Options come back with the usual values in the fields left out. -/
theorem decode_without (deleted : String → Bool) (o : Options) :
    decode (o.toJson.without deleted).toDraft = .ok (o.without deleted) := by
  rw [← foldl_columns]
  exact Column.decode_optional_record names_columns (by decide) o.holds_columns deleted {}

end Options

namespace KeywordPreset

/-- The settings of the keyword preset. -/
def columns : List (Column KeywordPreset) :=
  [.opt "lowercase" Decoder.truth lowercase (fun s b => { s with lowercase := b }) fun _ => rfl,
   .opt "commas" Decoder.truth commas (fun s b => { s with commas := b }) fun _ => rfl]

/-- The members of written settings hold their values. -/
theorem holds_columns (s : KeywordPreset) : List.Forall₂ (Column.Holds s) s.members columns :=
  .cons ⟨rfl, rfl⟩ <| .cons ⟨rfl, rfl⟩ .nil

/-- Filling the columns that are not left out gives the settings without those that are. -/
theorem foldl_columns (s : KeywordPreset) (deleted : String → Bool) :
    columns.foldl (fun base c => c.fill deleted s base) {} = s.without deleted := by
  simp only [columns, List.foldl_cons, List.foldl_nil, Column.fill_eq]
  rfl

end KeywordPreset

namespace SimplePreset

/-- The settings of the simple preset. -/
def columns : List (Column SimplePreset) :=
  [.opt "expression" Decoder.text expression (fun s e => { s with expression := e }) fun _ => rfl,
   .opt "gaps" Decoder.truth gaps (fun s b => { s with gaps := b }) fun _ => rfl]

/-- The members of written settings hold their values. -/
theorem holds_columns (s : SimplePreset) : List.Forall₂ (Column.Holds s) s.members columns :=
  .cons ⟨rfl, rfl⟩ <| .cons ⟨rfl, rfl⟩ .nil

/-- Filling the columns that are not left out gives the settings without those that are. -/
theorem foldl_columns (s : SimplePreset) (deleted : String → Bool) :
    columns.foldl (fun base c => c.fill deleted s base) {} = s.without deleted := by
  simp only [columns, List.foldl_cons, List.foldl_nil, Column.fill_eq]
  rfl

end SimplePreset

namespace StandardPreset

/-- The settings of the standard preset. -/
def columns : List (Column StandardPreset) :=
  [.opt "expression" Decoder.text expression (fun s e => { s with expression := e }) fun _ => rfl,
   .opt "gaps" Decoder.truth gaps (fun s b => { s with gaps := b }) fun _ => rfl,
   .opt "stop_words" StopSelection.decode stopWords (fun s w => { s with stopWords := w })
     fun _ => rfl,
   .opt "min_size" Decoder.count minSize (fun s n => { s with minSize := n }) fun _ => rfl,
   .opt "max_size" (Decoder.optional Decoder.count) maxSize (fun s n => { s with maxSize := n })
     fun _ => rfl]

/-- The members of written settings hold their values. -/
theorem holds_columns (s : StandardPreset) : List.Forall₂ (Column.Holds s) s.members columns :=
  .cons ⟨rfl, rfl⟩ <| .cons ⟨rfl, rfl⟩ <| .cons ⟨rfl, StopSelection.decode_toJson _⟩ <|
    .cons ⟨rfl, Json.decode_count _⟩ <| .cons ⟨rfl, Json.decode_optional_count _⟩ .nil

/-- Filling the columns that are not left out gives the settings without those that are. -/
theorem foldl_columns (s : StandardPreset) (deleted : String → Bool) :
    columns.foldl (fun base c => c.fill deleted s base) {} = s.without deleted := by
  simp only [columns, List.foldl_cons, List.foldl_nil, Column.fill_eq]
  rfl

end StandardPreset

namespace StemmingPreset

/-- The settings of the stemming preset. -/
def columns : List (Column StemmingPreset) :=
  [.opt "expression" Decoder.text expression (fun s e => { s with expression := e }) fun _ => rfl,
   .opt "gaps" Decoder.truth gaps (fun s b => { s with gaps := b }) fun _ => rfl,
   .opt "stop_words" StopSelection.decode stopWords (fun s w => { s with stopWords := w })
     fun _ => rfl,
   .opt "min_size" Decoder.count minSize (fun s n => { s with minSize := n }) fun _ => rfl,
   .opt "max_size" (Decoder.optional Decoder.count) maxSize (fun s n => { s with maxSize := n })
     fun _ => rfl,
   .opt "language" (Decoder.optional Decoder.text) language (fun s l => { s with language := l })
     fun _ => rfl,
   .opt "ignore" Decoder.words ignored (fun s w => { s with ignored := w }) fun _ => rfl,
   .opt "cache_size" (Decoder.optional Decoder.count) cacheSize
     (fun s n => { s with cacheSize := n }) fun _ => rfl]

/-- The members of written settings hold their values. -/
theorem holds_columns (s : StemmingPreset) : List.Forall₂ (Column.Holds s) s.members columns :=
  .cons ⟨rfl, rfl⟩ <| .cons ⟨rfl, rfl⟩ <| .cons ⟨rfl, StopSelection.decode_toJson _⟩ <|
    .cons ⟨rfl, Json.decode_count _⟩ <| .cons ⟨rfl, Json.decode_optional_count _⟩ <|
    .cons ⟨rfl, Json.decode_optional_text _⟩ <| .cons ⟨rfl, WordSet.decode_toJson _⟩ <|
    .cons ⟨rfl, Json.decode_optional_count _⟩ .nil

/-- A stemming function of the user is not written, so there may be none. -/
theorem foldl_columns (s : StemmingPreset) (deleted : String → Bool) (h : s.custom = none) :
    columns.foldl (fun base c => c.fill deleted s base) {} = s.without deleted := by
  simp only [columns, Column.opt, List.foldl_cons, List.foldl_nil, Column.fill_eq, without, h]

end StemmingPreset

namespace LanguagePreset

/-- The settings of the language preset. -/
def columns : List (Column LanguagePreset) :=
  [.opt "language" Decoder.text language (fun s l => { s with language := l }) fun _ => rfl,
   .opt "expression" Decoder.text expression (fun s e => { s with expression := e }) fun _ => rfl,
   .opt "gaps" Decoder.truth gaps (fun s b => { s with gaps := b }) fun _ => rfl,
   .opt "ignore" Decoder.words ignored (fun s w => { s with ignored := w }) fun _ => rfl]

/-- The members of written settings hold their values. -/
theorem holds_columns (s : LanguagePreset) : List.Forall₂ (Column.Holds s) s.members columns :=
  .cons ⟨rfl, rfl⟩ <| .cons ⟨rfl, rfl⟩ <| .cons ⟨rfl, rfl⟩ <|
    .cons ⟨rfl, WordSet.decode_toJson _⟩ .nil

/-- Filling the columns that are not left out gives the settings without those that are. -/
theorem foldl_columns (s : LanguagePreset) (deleted : String → Bool) :
    columns.foldl (fun base c => c.fill deleted s base) {} = s.without deleted := by
  simp only [columns, List.foldl_cons, List.foldl_nil, Column.fill_eq]
  rfl

end LanguagePreset

/-! ## Presets -/

/-- A configuration can be written: its counts have 64 bits, and it has no stemming function of the
user. -/
def Preset.Storable : Preset → Prop
  | standard s => s.minSize ≤ Saturating.ceiling ∧ ∀ n ∈ s.maxSize, n ≤ Saturating.ceiling
  | stemming s =>
    s.custom = none ∧ s.minSize ≤ Saturating.ceiling ∧ (∀ n ∈ s.maxSize, n ≤ Saturating.ceiling) ∧
      ∀ n ∈ s.cacheSize, n ≤ Saturating.ceiling
  | _ => True

namespace Preset

/-- Settings of a preset, some of them left out, are read with the usual values in their place. -/
theorem ofValue_filter {α : Type} {columns : List (Column α)}
    (hnames : (columns.map Column.name).Nodup) (hoptional : ∀ c ∈ columns, c.required = false)
    {a b base : α} {members : List (String × Json)}
    (h : List.Forall₂ (Column.Holds a) members columns) {deleted : String → Bool}
    (hfill : columns.foldl (fun base c => c.fill deleted a base) base = b) (wrap : α → Preset) :
    ofValue base (columns.map Column.field) wrap (.object (members.filter fun m => !deleted m.1)) =
      .ok (wrap b) := by
  rw [ofValue, Json.decodeValue, Column.decode_optional_record hnames hoptional h, hfill]
  rfl

/-- The settings of a preset, some of them left out, are read as those of the preset. -/
theorem ofSettings_filter {p : Preset} (h : p.Storable) (deleted : String → Bool) :
    ofSettings p.name (.object (p.members.filter fun m => !deleted m.1)) =
      .ok (p.without deleted) := by
  cases p with
  | keyword s =>
    exact ofValue_filter (by decide) (by decide) s.holds_columns (s.foldl_columns deleted) keyword
  | simple s =>
    exact ofValue_filter (by decide) (by decide) s.holds_columns (s.foldl_columns deleted) simple
  | standard s =>
    exact ofValue_filter (by decide) (by decide) s.holds_columns (s.foldl_columns deleted) standard
  | stemming s =>
    exact ofValue_filter (by decide) (by decide) s.holds_columns (s.foldl_columns deleted h.1) stemming
  | language s =>
    exact ofValue_filter (by decide) (by decide) s.holds_columns (s.foldl_columns deleted) language

/-- Members behind the name of a preset are kept as its settings. -/
theorem splitMembers_settings (name : String) (kept : List (String × Json))
    {settings : List (String × Json)}
    (h : ∀ m ∈ settings, m.1 ≠ "type" ∧ m.2.depth ≤ maxDepth) :
    splitMembers (some name) kept (Json.toDraftMembers settings) =
      .ok (some name, kept.reverse ++ settings) := by
  induction settings generalizing kept with
  | nil => rw [List.append_nil]; rfl
  | cons m rest ih =>
    obtain ⟨⟨hname, hdepth⟩, hrest⟩ := List.forall_mem_cons.mp h
    rw [Json.toDraftMembers, splitMembers, if_neg hname, Json.value_toDraft m.2 hdepth]
    have hread := ih ((m.1, m.2) :: kept) hrest
    rw [List.reverse_cons, List.append_assoc, List.singleton_append] at hread
    exact hread

/-- A written preset is read by its name and its settings. -/
theorem decode_settings {name : String} (hname : names.contains name = true)
    {settings : List (String × Json)}
    (h : ∀ m ∈ settings, m.1 ≠ "type" ∧ m.2.depth ≤ maxDepth) :
    decode (Json.object (("type", .string name) :: settings)).toDraft =
      ofSettings name (.object settings) := by
  have hsplit : splitMembers none [] (Json.toDraftMembers (("type", .string name) :: settings)) =
      .ok (some name, settings) := by
    have hread := splitMembers_settings name [] h
    rw [List.reverse_nil, List.nil_append] at hread
    rw [Json.toDraftMembers, splitMembers, if_pos rfl, Json.toDraft, decodeName, if_pos hname]
    exact hread
  rw [Json.toDraft, decode, hsplit]
  rfl

/-- Every preset has one of the known names. -/
theorem names_contains (p : Preset) : names.contains p.name = true := by
  cases p <;> rfl

/-- A member that may be a setting of a preset: it is not the name, it is not nested too deeply, and
its numbers are whole. -/
structure Fits (m : String × Json) : Prop where
  name : m.1 ≠ "type"
  depth : m.2.depth ≤ maxDepth
  whole : m.2.Whole

namespace Fits

variable {key : String}

/-- A truth value fits, -/
theorem truth (hkey : key ≠ "type") (b : Bool) : Fits (key, .bool b) :=
  ⟨hkey, Nat.zero_le _, trivial⟩

/-- a text does, -/
theorem text (hkey : key ≠ "type") (s : String) : Fits (key, .string s) :=
  ⟨hkey, Nat.zero_le _, trivial⟩

/-- a count of 64 bits does, -/
theorem count (hkey : key ≠ "type") {n : Nat} (hn : n ≤ Saturating.ceiling) :
    Fits (key, .count n) :=
  ⟨hkey, Nat.zero_le _, hn⟩

/-- a value that may be missing does where a present one does, -/
theorem optional (hkey : key ≠ "type") {β : Type} {write : β → Json} {x : Option β}
    (h : ∀ b ∈ x, Fits (key, write b)) : Fits (key, .optional write x) := by
  cases x with
  | none => exact ⟨hkey, Nat.zero_le _, trivial⟩
  | some b => exact h b rfl

/-- a set of words does, -/
theorem words (hkey : key ≠ "type") (set : WordSet) : Fits (key, WordSet.toJson set) := by
  refine ⟨hkey, ?_, Json.wholeItems_map fun _ _ => trivial⟩
  have hdepth := Json.itemsDepth_strings set.toList
  rw [WordSet.toJson, Json.depth, hdepth]
  decide

/-- and so does the selection of stop words. -/
theorem stopWords (hkey : key ≠ "type") (s : StopSelection) : Fits (key, s.toJson) := by
  cases s with
  | words set =>
    have hdepth := Json.itemsDepth_strings set.toList
    refine ⟨hkey, ?_, Json.wholeItems_map fun _ _ => trivial, trivial⟩
    simp only [StopSelection.toJson, WordSet.toJson, Json.depth, Json.membersDepth, hdepth]
    decide
  | language code =>
    have hdepth : (StopSelection.language code).toJson.depth ≤ maxDepth := by
      show 1 ≤ maxDepth
      decide
    exact ⟨hkey, hdepth, trivial, trivial⟩
  | _ => exact ⟨hkey, Nat.zero_le _, trivial⟩

end Fits

/-- All settings of a preset that can be written fit. -/
theorem fits_members {p : Preset} (h : p.Storable) : ∀ m ∈ p.members, Fits m := by
  cases p with
  | keyword s =>
    simp only [members, KeywordPreset.members, List.forall_mem_cons]
    exact ⟨.truth (by decide) _, .truth (by decide) _, by simp⟩
  | simple s =>
    simp only [members, SimplePreset.members, List.forall_mem_cons]
    exact ⟨.text (by decide) _, .truth (by decide) _, by simp⟩
  | standard s =>
    obtain ⟨hmin, hmax⟩ := h
    simp only [members, StandardPreset.members, List.forall_mem_cons]
    exact ⟨.text (by decide) _, .truth (by decide) _, .stopWords (by decide) _,
      .count (by decide) hmin, .optional (by decide) fun n hn => .count (by decide) (hmax n hn),
      by simp⟩
  | stemming s =>
    obtain ⟨-, hmin, hmax, hcache⟩ := h
    simp only [members, StemmingPreset.members, List.forall_mem_cons]
    exact ⟨.text (by decide) _, .truth (by decide) _, .stopWords (by decide) _,
      .count (by decide) hmin, .optional (by decide) fun n hn => .count (by decide) (hmax n hn),
      .optional (by decide) fun _ _ => .text (by decide) _, .words (by decide) _,
      .optional (by decide) fun n hn => .count (by decide) (hcache n hn), by simp⟩
  | language s =>
    simp only [members, LanguagePreset.members, List.forall_mem_cons]
    exact ⟨.text (by decide) _, .text (by decide) _, .truth (by decide) _, .words (by decide) _,
      by simp⟩

/-- Leaving settings out of a preset keeps its name. -/
theorem without_toJson (p : Preset) {deleted : String → Bool} (hname : deleted "type" = false) :
    p.toJson.without deleted =
      .object (("type", .string p.name) :: p.members.filter fun m => !deleted m.1) := by
  rw [toJson, Json.without, List.filter_cons_of_pos (by rw [hname]; rfl)]

/-- A preset comes back with the usual settings in the fields left out. -/
theorem decode_without {p : Preset} (h : p.Storable) {deleted : String → Bool}
    (hname : deleted "type" = false) :
    decode (p.toJson.without deleted).toDraft = .ok (p.without deleted) := by
  have hfits (m : String × Json) (hm : m ∈ p.members.filter fun m => !deleted m.1) : Fits m :=
    fits_members h m (List.mem_filter.mp hm).1
  rw [without_toJson p hname, decode_settings p.names_contains
    fun m hm => ⟨(hfits m hm).name, (hfits m hm).depth⟩]
  exact ofSettings_filter h deleted

/-- All numbers in a preset are whole, whatever is left out. -/
theorem whole_without {p : Preset} (h : p.Storable) {deleted : String → Bool}
    (hname : deleted "type" = false) : (p.toJson.without deleted).Whole := by
  rw [without_toJson p hname]
  refine (Json.wholeMembers_iff _).mpr (List.forall_mem_cons.mpr ⟨trivial, fun m hm => ?_⟩)
  exact (fits_members h m (List.mem_filter.mp hm).1).whole

end Preset

/-! ## Configurations -/

/-- The counts have 64 bits. -/
def Options.Storable (o : Options) : Prop :=
  o.firstPosition ≤ Saturating.ceiling ∧ o.firstOffset ≤ Saturating.ceiling

/-- A configuration that can be written. -/
def Config.Storable (c : Config) : Prop := c.preset.Storable ∧ c.options.Storable

/-- All numbers in options are whole, whatever is left out. -/
theorem Options.whole_without {o : Options} (h : o.Storable) (deleted : String → Bool) :
    (o.toJson.without deleted).Whole := by
  have hmembers : ∀ m ∈ o.toJson.members, m.2.Whole := by
    simp only [toJson, Json.members, List.forall_mem_cons]
    exact ⟨trivial, trivial, trivial, trivial, h.1, h.2, trivial, trivial, trivial,
      o.attributes.whole_toJson, by simp⟩
  exact (Json.wholeMembers_iff _).mpr fun m hm => hmembers m (List.mem_filter.mp hm).1

namespace Config

/-- The settings of a configuration. -/
def columns : List (Column Config) :=
  [.opt "analyzer" Preset.decode preset (fun c p => { c with preset := p }) fun _ => rfl,
   .opt "options" Options.decode options (fun c o => { c with options := o }) fun _ => rfl]

variable {c : Config}

/-- Leaving fields out of a configuration leaves them out of its parts. -/
theorem run_toJson (d : Deletion) (c : Config) :
    d.run c.toJson =
      .object ([("analyzer", c.preset.toJson.without d.preset),
        ("options", c.options.toJson.without d.options)].filter fun m => !d.config m.1) := by
  simp [Deletion.run, toJson, Json.within, Json.without]

/-- A configuration comes back with the usual values in the fields left out. -/
theorem decode_run (h : c.Storable) (d : Deletion) :
    decode (d.run c.toJson).toDraft = .ok (d.restore c) := by
  have hholds : List.Forall₂ (Column.Holds
        ⟨c.preset.without d.preset, c.options.without d.options⟩)
      [("analyzer", c.preset.toJson.without d.preset),
        ("options", c.options.toJson.without d.options)] columns :=
    .cons ⟨rfl, Preset.decode_without h.1 d.keepsName⟩ <|
      .cons ⟨rfl, Options.decode_without d.options c.options⟩ .nil
  have hread := Column.decode_optional_record (by decide) (by decide) hholds d.config {}
  rw [run_toJson]
  refine hread.trans (congrArg Except.ok ?_)
  simp only [columns, List.foldl_cons, List.foldl_nil, Column.fill_eq]
  rfl

/-- All numbers in a configuration are whole, whatever is left out. -/
theorem whole_run (h : c.Storable) (d : Deletion) : (d.run c.toJson).Whole := by
  rw [run_toJson]
  refine (Json.wholeMembers_iff _).mpr fun m hm => ?_
  have hmembers : ∀ m ∈ [("analyzer", c.preset.toJson.without d.preset),
      ("options", c.options.toJson.without d.options)], m.2.Whole := by
    simp only [List.forall_mem_cons]
    exact ⟨Preset.whole_without h.1 d.keepsName, Options.whole_without h.2 d.options, by simp⟩
  exact hmembers m (List.mem_filter.mp hm).1

/-- A configuration comes back from its text with the usual values in the fields left out. -/
theorem ofText_run (h : c.Storable) (d : Deletion) :
    ofText (d.run c.toJson).pretty = .ok (d.restore c) := by
  rw [ofText, Json.decodeText, Json.readText_pretty (whole_run h d)]
  dsimp only
  rw [decode_run h d]
  rfl

/-- Nothing is left out. -/
def Deletion.none : Deletion := ⟨fun _ => false, fun _ => false, fun _ => false, rfl⟩

/-- Leaving nothing out changes no written configuration -/
theorem Deletion.run_none (c : Config) : Deletion.none.run c.toJson = c.toJson := by
  rw [run_toJson]
  simp [Deletion.none, Json.without_none, toJson]

/-- and no configuration. -/
theorem Deletion.restore_none (c : Config) : Deletion.none.restore c = c := by
  obtain ⟨preset, options⟩ := c
  cases preset <;> rfl

end Config

/-- **Configurations come back.** A configuration that is written as a text is read back as it was:
every setting of its preset and every option is the same, so that building either of them, in any
workspaces, gives same pipelines with the same name or fails with the same failure. Where any fields
of the configuration, of its options or of its preset are left out of the written object, it is read
as well, and differs only in having the usual values in the fields left out. -/
theorem configurations_come_back (c : Config) (h : c.Storable) (d : Config.Deletion)
    (v w : Workspace) :
    (∃ c', Config.ofText c.toText = .ok c' ∧ c' = c ∧
      SameOutcome (fun p q => p.same q = true ∧ p.name = q.name) (c.preset.build.run v).1
        (c'.preset.build.run w).1) ∧
    Config.ofText (d.run c.toJson).pretty = .ok (d.restore c) := by
  have hwhole := Config.ofText_run h .none
  rw [Config.Deletion.run_none, Config.Deletion.restore_none] at hwhole
  have hbuild := (c.preset.alike_build v w).mono fun p q hpq =>
    And.intro ((p.same_iff q).mpr hpq.1) hpq.2
  exact ⟨⟨c, hwhole, rfl, hbuild⟩, Config.ofText_run h d⟩

/-- A stemming preset that caches nothing comes back; without that setting and without the mode of
the options it is read as one with the usual cache and the usual mode. -/
theorem stemming_configuration_comes_back :
    let c : Config :=
      { preset := .stemming { language := some "de", cacheSize := none }
        options := { positions := true, mode := "index" } }
    let d : Config.Deletion :=
      ⟨fun _ => false, fun key => key = "mode", fun key => key = "cache_size", rfl⟩
    c.Storable ∧ Config.ofText c.toText = .ok c ∧
      Config.ofText (d.run c.toJson).pretty =
        .ok
          { preset := .stemming { language := some "de", cacheSize := some defaultCacheSize }
            options := { positions := true } } := by
  intro c d
  have hstorable : c.Storable := by
    refine ⟨⟨rfl, by decide, nofun, nofun⟩, by decide, by decide⟩
  obtain ⟨⟨c', hread, rfl, -⟩, hdeleted⟩ := configurations_come_back c hstorable d {} {}
  exact ⟨hstorable, hread, hdeleted⟩

end TextAnalysis
