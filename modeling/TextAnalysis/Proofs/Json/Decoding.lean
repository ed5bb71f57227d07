import Mathlib.Data.List.Forall2
import TextAnalysis.Json.Settings

/-!
# Decoding what has been written

The fields of a record are columns: what is put into the record can be read off it again. A record
that is decoded from the members of another has the values of that one in the columns whose members
are there, and keeps its own in the columns whose members have been left out, as long as none of these
must be there (`Column.decode_record`). Single values, lists, sets of words and maps come back as they
have been written, and values that are kept as they are come back unless they are nested too deeply
(`value_toDraft`).
-/

set_option autoImplicit false

namespace TextAnalysis

namespace Json

/-! ## Columns -/

/-- The members of an object. -/
def members : Json → List (String × Json)
  | object members => members
  | _ => []

/-- A field of a record, with the value that the record has in it. -/
structure Column (α : Type) where
  name : String
  required : Bool
  Value : Type
  decode : Decoder Value
  get : α → Value
  put : α → Value → α
  put_get : ∀ a, put a (get a) = a

namespace Column

variable {α : Type}

/-- A column whose member may be missing. -/
def opt {β : Type} (name : String) (decode : Decoder β) (get : α → β) (put : α → β → α)
    (put_get : ∀ a, put a (get a) = a) : Column α :=
  ⟨name, false, β, decode, get, put, put_get⟩

/-- A column whose member must be there. -/
def req {β : Type} (name : String) (decode : Decoder β) (get : α → β) (put : α → β → α)
    (put_get : ∀ a, put a (get a) = a) : Column α :=
  ⟨name, true, β, decode, get, put, put_get⟩

/-- The field of a column. -/
def field (c : Column α) : Field α :=
  ⟨c.name, c.required, fun a draft => (c.decode draft).map (c.put a)⟩

/-- The member is for the column, and its value is read as the one that the record has there. -/
structure Holds (a : α) (m : String × Json) (c : Column α) : Prop where
  name : m.1 = c.name
  value : c.decode m.2.toDraft = .ok (c.get a)

/-- The record with the value of another in a column, unless the column is left out. -/
def fill (deleted : String → Bool) (a base : α) (c : Column α) : α :=
  if deleted c.name then base else c.put base (c.get a)

/-- Leaving a column out puts the value there that the record has already. -/
theorem fill_eq (deleted : String → Bool) (a base : α) (c : Column α) :
    c.fill deleted a base = c.put base (if deleted c.name then c.get base else c.get a) := by
  unfold fill
  split
  · exact (c.put_get base).symm
  · rfl

/-- A field is found by its name among those of columns with different names. -/
theorem find?_field {columns : List (Column α)} (hnames : (columns.map name).Nodup) {c : Column α}
    (hc : c ∈ columns) : (columns.map field).find? (fun f => f.name = c.name) = some c.field := by
  induction columns with
  | nil => cases hc
  | cons first rest ih =>
    obtain ⟨hfirst, hrest⟩ := List.nodup_cons.mp hnames
    rw [List.map_cons]
    rcases List.mem_cons.mp hc with rfl | hc
    · exact List.find?_cons_of_pos (by simp [field])
    · have hne : first.name ≠ c.name := fun heq => hfirst (heq ▸ List.mem_map_of_mem hc)
      rw [List.find?_cons_of_neg (by simp [field, hne]), ih hrest hc]

/-- Members that hold the values of a record, with some of them left out, put the others into the
record that is decoded, and their names are seen. No name has been seen before, and every column has
a name of its own. -/
theorem fromMembers_filter {all columns : List (Column α)} (hnames : (all.map name).Nodup)
    (hsubset : columns ⊆ all) (hcolumns : (columns.map name).Nodup) {a : α}
    {members : List (String × Json)} (h : List.Forall₂ (Holds a) members columns)
    (deleted : String → Bool) (base : α) {seen : List String}
    (hseen : ∀ c ∈ columns, c.name ∉ seen) :
    ∃ seen', Field.fromMembers (all.map field) seen base
        (toDraftMembers (members.filter fun m => !deleted m.1)) =
      .ok (columns.foldl (fun base c => c.fill deleted a base) base, seen') ∧
      seen ⊆ seen' ∧ ∀ c ∈ columns, deleted c.name = false → c.name ∈ seen' := by
  -- The induction is on the columns that are still to come; members are looked up among all columns.
  induction h generalizing base seen with
  | nil => exact ⟨seen, rfl, List.Subset.refl seen, by simp⟩
  | @cons m c members columns hm _ ih =>
    obtain ⟨hfresh, hrest⟩ := List.nodup_cons.mp hcolumns
    obtain ⟨hc, hsubset⟩ := List.cons_subset.mp hsubset
    have ih := @ih hsubset hrest
    rw [List.filter_cons, List.foldl_cons, hm.name]
    cases hdeleted : deleted c.name with
    | true =>
      have hfill : c.fill deleted a base = base := by rw [fill, if_pos hdeleted]
      obtain ⟨seen', hread, hmore, hfound⟩ :=
        ih base fun d hd => hseen d (List.mem_cons_of_mem c hd)
      rw [hfill]
      refine ⟨seen', hread, hmore, List.forall_mem_cons.mpr ⟨fun hkept => ?_, hfound⟩⟩
      rw [hdeleted] at hkept
      cases hkept
    | false =>
      have hfill : c.fill deleted a base = c.put base (c.get a) := by
        rw [fill, if_neg (by rw [hdeleted]; exact Bool.false_ne_true)]
      obtain ⟨key, j⟩ := m
      obtain ⟨rfl, hvalue⟩ := hm
      have hnot : seen.contains c.name = false := by
        simpa using hseen c List.mem_cons_self
      obtain ⟨seen', hread, hmore, hfound⟩ :=
        @ih (c.put base (c.get a)) (c.name :: seen) fun d hd hmem => by
          rcases List.mem_cons.mp hmem with heq | hmem
          · exact hfresh (heq ▸ List.mem_map_of_mem hd)
          · exact hseen d (List.mem_cons_of_mem c hd) hmem
      obtain ⟨hhere, hmore⟩ := List.cons_subset.mp hmore
      refine ⟨seen', ?_, hmore, List.forall_mem_cons.mpr ⟨fun _ => hhere, hfound⟩⟩
      have hset : c.field.set base j.toDraft = .ok (c.put base (c.get a)) := by
        simp only [field, hvalue]
        rfl
      rw [hfill]
      simp only [Bool.not_false, if_true, toDraftMembers, Field.fromMembers,
        find?_field hnames hc, hnot, Bool.false_eq_true, if_false, hset]
      exact hread

/-- **A record comes back up to what has been left out.** Decoding the members of a record, some of
them left out, gives the record that has its values in the other columns and those of `base` in
these. No column that must be there is left out. -/
theorem decode_record {columns : List (Column α)} (hnames : (columns.map name).Nodup) {a : α}
    {members : List (String × Json)} (h : List.Forall₂ (Holds a) members columns)
    (deleted : String → Bool)
    (hrequired : ∀ c ∈ columns, c.required = true → deleted c.name = false) (base : α) :
    Decoder.record base (columns.map field)
        (Json.object (members.filter fun m => !deleted m.1)).toDraft =
      .ok (columns.foldl (fun base c => c.fill deleted a base) base) := by
  obtain ⟨seen, hread, -, hfound⟩ := fromMembers_filter hnames (List.Subset.refl columns) hnames h
    deleted base fun _ _ => List.not_mem_nil
  have hcomplete : ((columns.map field).all fun f => !f.required || seen.contains f.name) = true := by
    refine List.all_eq_true.mpr (List.forall_mem_map.mpr fun c hc => ?_)
    cases hreq : c.required with
    | false => simp [field, hreq]
    | true => simp [field, hfound c hc (hrequired c hc hreq)]
  rw [toDraft, Decoder.record, hread]
  exact if_pos hcomplete

/-- Any columns may be left out of a record that requires none. -/
theorem decode_optional_record {columns : List (Column α)} (hnames : (columns.map name).Nodup)
    (hoptional : ∀ c ∈ columns, c.required = false) {a : α} {members : List (String × Json)}
    (h : List.Forall₂ (Holds a) members columns) (deleted : String → Bool) (base : α) :
    Decoder.record base (columns.map field)
        (Json.object (members.filter fun m => !deleted m.1)).toDraft =
      .ok (columns.foldl (fun base c => c.fill deleted a base) base) :=
  decode_record hnames h deleted (fun c hc hrequired => by simp [hoptional c hc] at hrequired) base

/-- A record of which nothing is left out comes back whole. -/
theorem decode_whole {columns : List (Column α)} (hnames : (columns.map name).Nodup) {a base : α}
    {members : List (String × Json)} (h : List.Forall₂ (Holds a) members columns)
    (hvalues : columns.foldl (fun base c => c.put base (c.get a)) base = a) :
    Decoder.record base (columns.map field) (Json.object members).toDraft = .ok a := by
  have hread := decode_record hnames h (fun _ => false) (fun _ _ _ => rfl) base
  simp only [Bool.not_false, List.filter_true, fill, Bool.false_eq_true, if_false, hvalues] at hread
  exact hread

end Column

/-! ## Single values -/

/-- A value that may be missing comes back where a present one does, and is not written as null. -/
theorem decode_optional {β : Type} {decode : Decoder β} {write : β → Json} {x : Option β}
    (h : ∀ b ∈ x, decode (write b).toDraft = .ok b ∧ write b ≠ .null) :
    Decoder.optional decode (Json.optional write x).toDraft = .ok x := by
  cases x with
  | none => rfl
  | some b =>
    obtain ⟨hvalue, hnull⟩ := h b rfl
    rw [Json.optional]
    cases hwrite : write b with
    | null => exact absurd hwrite hnull
    | _ =>
      rw [hwrite] at hvalue
      simp only [toDraft, Decoder.optional] at hvalue ⊢
      rw [hvalue]
      rfl

/-- A count comes back, -/
theorem decode_count (n : Nat) : Decoder.count (Json.count n).toDraft = .ok n := by
  simp [Json.count, toDraft, Decoder.count]

/-- one that may be missing does, -/
theorem decode_optional_count (x : Option Nat) :
    Decoder.optional Decoder.count (Json.optional Json.count x).toDraft = .ok x :=
  decode_optional fun n _ => ⟨decode_count n, nofun⟩

/-- and so does a text that may be missing. -/
theorem decode_optional_text (x : Option String) :
    Decoder.optional Decoder.text (Json.optional Json.string x).toDraft = .ok x :=
  decode_optional fun _ _ => ⟨rfl, nofun⟩

/-- Items come back as what every one of them is read as, -/
theorem items_toDrafts {β γ : Type} {decode : Decoder γ} {write : β → Json} {read : β → γ}
    {values : List β} (h : ∀ b ∈ values, decode (write b).toDraft = .ok (read b)) :
    Decoder.items decode (toDrafts (values.map write)) = .ok (values.map read) := by
  induction values with
  | nil => rfl
  | cons b rest ih =>
    obtain ⟨hb, hrest⟩ := List.forall_mem_cons.mp h
    rw [List.map_cons, toDrafts, Decoder.items, hb, ih hrest]
    rfl

/-- and so does the list of them. -/
theorem decode_list {β γ : Type} {decode : Decoder γ} {write : β → Json} {read : β → γ}
    {values : List β} (h : ∀ b ∈ values, decode (write b).toDraft = .ok (read b)) :
    Decoder.list decode (Json.array (values.map write)).toDraft = .ok (values.map read) := by
  rw [toDraft, Decoder.list, items_toDrafts h]
  rfl

end Json

/-- Inserting words into a set leaves these words and those that it had. -/
theorem WordSet.mem_foldl_insert (words : List String) (s : WordSet) (word : String) :
    word ∈ words.foldl (fun s w => s.insert w) s ↔ word ∈ words ∨ word ∈ s := by
  induction words generalizing s with
  | nil => simp
  | cons w rest ih =>
    rw [List.foldl_cons, ih, Std.ExtTreeSet.mem_insert, Std.compare_eq_iff_eq, List.mem_cons]
    simp only [or_assoc, or_left_comm, eq_comm]

/-- A set is the set of the words that it lists. -/
theorem WordSet.ofWords_toList (s : WordSet) : WordSet.ofWords s.toList = s := by
  refine Std.ExtTreeSet.ext_mem fun word => ?_
  rw [ofWords, mem_foldl_insert]
  simp

/-- A set of words comes back from the list of them. -/
theorem WordSet.decode_toJson (s : WordSet) :
    Json.Decoder.words (WordSet.toJson s).toDraft = .ok s := by
  have hwords : Json.Decoder.list Json.Decoder.text (Json.array (s.toList.map .string)).toDraft =
      .ok (s.toList.map id) := Json.decode_list fun _ _ => rfl
  rw [WordSet.toJson, Json.Decoder.words, hwords, List.map_id]
  exact congrArg Except.ok s.ofWords_toList

/-- Written members are inserted into a map in their order. -/
theorem Attributes.textMembers_map (members : List (String × String)) (m : Attributes) :
    Json.Decoder.textMembers m (Json.toDraftMembers (members.map fun e => (e.1, .string e.2))) =
      .ok (m.insertMany members) := by
  induction members generalizing m with
  | nil => simp [Json.toDraftMembers, Json.Decoder.textMembers]
  | cons e rest ih =>
    rw [Std.ExtTreeMap.insertMany_cons, ← ih]
    rfl

/-- A map is the map of the entries that it lists. -/
theorem Attributes.insertMany_toList (a : Attributes) :
    (∅ : Attributes).insertMany a.toList = a := by
  refine Std.ExtTreeMap.ext_getElem? fun key => ?_
  cases hvalue : a[key]? with
  | some value =>
    exact Std.ExtTreeMap.getElem?_insertMany_list_of_mem Std.ReflCmp.compare_self
      Std.ExtTreeMap.distinct_keys_toList (Std.ExtTreeMap.mem_toList_iff_getElem?_eq_some.mpr hvalue)
  | none =>
    rw [Std.ExtTreeMap.getElem?_insertMany_list_of_contains_eq_false]
    · simp
    · refine Bool.eq_false_iff.mpr fun hlisted => ?_
      obtain ⟨e, he, rfl⟩ := List.mem_map.mp (List.contains_iff_mem.mp hlisted)
      rw [Std.ExtTreeMap.mem_toList_iff_getElem?_eq_some.mp he] at hvalue
      cases hvalue

/-- A map of texts comes back. -/
theorem Attributes.decode_toJson (a : Attributes) :
    Json.Decoder.textMap (Attributes.toJson a).toDraft = .ok a := by
  rw [Attributes.toJson, Json.toDraft, Json.Decoder.textMap, Attributes.textMembers_map,
    Attributes.insertMany_toList]
  rfl

/-- A selection of stop words comes back. -/
theorem StopSelection.decode_toJson (s : StopSelection) :
    StopSelection.decode s.toJson.toDraft = .ok s := by
  cases s with
  | words set =>
    have hdecode : decode (words set).toJson.toDraft =
        (Json.Decoder.words (WordSet.toJson set).toDraft).map .words := rfl
    rw [hdecode, set.decode_toJson]
    rfl
  | _ => rfl

/-! ## Values that are kept as they are -/

namespace Json

mutual

/-- How deep arrays and objects are nested in the value. -/
def depth : Json → Nat
  | .array items => itemsDepth items + 1
  | .object members => membersDepth members + 1
  | _ => 0

/-- The depth of the deepest item. -/
def itemsDepth : List Json → Nat
  | [] => 0
  | j :: rest => max j.depth (itemsDepth rest)

/-- The depth of the deepest member. -/
def membersDepth : List (String × Json) → Nat
  | [] => 0
  | (_, j) :: rest => max j.depth (membersDepth rest)

end

/-- Texts in a list are not nested. -/
theorem itemsDepth_strings (words : List String) : itemsDepth (words.map .string) = 0 := by
  induction words with
  | nil => rfl
  | cons word rest ih => simp [itemsDepth, depth, ih]

mutual

/-- A value that is not nested too deeply is kept as it is. -/
theorem value_toDraft : ∀ (j : Json) {limit : Nat}, j.depth ≤ limit → j.toDraft.value limit = .ok j
  | .null, _, _ | .bool _, _, _ | .integer _ _, _, _ | .decimal _ _, _, _ | .string _, _, _ => by
    simp [toDraft, Draft.value]
  | .array items, limit, h => by
    obtain ⟨limit, rfl⟩ : ∃ n, limit = n + 1 := ⟨limit - 1, by rw [depth] at h; omega⟩
    rw [toDraft, Draft.value, itemValues_toDrafts items (Nat.le_of_succ_le_succ h)]
    rfl
  | .object members, limit, h => by
    obtain ⟨limit, rfl⟩ : ∃ n, limit = n + 1 := ⟨limit - 1, by rw [depth] at h; omega⟩
    rw [toDraft, Draft.value, memberValues_toDraftMembers members (Nat.le_of_succ_le_succ h)]
    rfl

/-- So are the items of an array, -/
theorem itemValues_toDrafts : ∀ (items : List Json) {limit : Nat}, itemsDepth items ≤ limit →
    itemValues limit (toDrafts items) = .ok items
  | [], _, _ => by rw [toDrafts, itemValues]
  | j :: rest, limit, h => by
    rw [itemsDepth, Nat.max_le] at h
    rw [toDrafts, itemValues, value_toDraft j h.1, itemValues_toDrafts rest h.2]
    rfl

/-- and the members of an object. -/
theorem memberValues_toDraftMembers : ∀ (members : List (String × Json)) {limit : Nat},
    membersDepth members ≤ limit → memberValues limit (toDraftMembers members) = .ok members
  | [], _, _ => by rw [toDraftMembers, memberValues]
  | (key, j) :: rest, limit, h => by
    rw [membersDepth, Nat.max_le] at h
    rw [toDraftMembers, memberValues, value_toDraft j h.1, memberValues_toDraftMembers rest h.2]
    rfl

end

end Json

end TextAnalysis
