import Mathlib.Data.Bool.AllAny
import TextAnalysis.Proofs.CharMap.Reading
import TextAnalysis.Proofs.Text.Trimming
import TextAnalysis.Token

/-!
# What a description tells

The description of a token is one line of text, and all of the token can be read off it: no two
tokens have the same description, unless they differ in nothing but weights that are written alike.

The parts of a description are told apart one by one (`Tells`). A quoted text ends at its own quote,
since a quote in it is escaped. Counts, weights and words end in front of a mark that does not stand
in them, and one of these marks follows every part. The main statement is `Token.describe_eq_iff`.
-/

set_option autoImplicit false

namespace TextAnalysis

/-- What is joined from parts begins with the first part, and a separator stands in front of each of
the others. -/
theorem intercalate_cons {α : Type} (separator first : List α) (rest : List (List α)) :
    separator.intercalate (first :: rest) = first ++ rest.flatMap (separator ++ ·) := by
  induction rest generalizing first with
  | nil => simp
  | cons second rest ih =>
    rw [List.intercalate_cons_cons, ih, List.flatMap_cons, List.append_assoc, List.append_assoc]

namespace Text.Described

open Quoted (escapeChar escapeCode quote)

/-! ## Forms that are told apart -/

/-- The characters that may follow a part of a description. -/
def IsMark (c : Char) : Prop := c ∈ [',', ' ', ':', ')', '\x7d']

instance (c : Char) : Decidable (IsMark c) := inferInstanceAs (Decidable (c ∈ _))

/-- What may follow a part of a description: nothing, or a mark. -/
def Follows (rest : List Char) : Prop := ∀ c ∈ rest.head?, IsMark c

/-- A mark may follow a value. -/
theorem follows_cons {c : Char} (h : IsMark c) (rest : List Char) : Follows (c :: rest) := by
  rintro d hd
  rwa [← Option.some.inj hd]

variable {α β : Type}

/-- Where two values are written at the same place, they are the same, and so is what follows them. -/
def Tells (write : α → String) (Same : α → α → Prop) : Prop :=
  ∀ ⦃a b rest rest'⦄, Follows rest → Follows rest' →
    (write a).toList ++ rest = (write b).toList ++ rest' → Same a b ∧ rest = rest'

namespace Tells

/-- Forms without marks end where the first mark stands. -/
theorem of_no_mark {write : α → String} (h : ∀ a, ∀ c ∈ (write a).toList, ¬ IsMark c) :
    Tells write fun a b => write a = write b := by
  have hcut (a : α) {rest : List Char} (hrest : Follows rest) :
      ((write a).toList ++ rest).takeWhile (fun c => decide (¬ IsMark c)) = (write a).toList ∧
        ((write a).toList ++ rest).dropWhile (fun c => decide (¬ IsMark c)) = rest :=
    Text.cut_append (fun c hc => decide_eq_true (h a c hc)) fun c hc => by simpa using hrest c hc
  intro a b rest rest' hrest hrest' heq
  obtain ⟨htake, hdrop⟩ := hcut a hrest
  obtain ⟨htake', hdrop'⟩ := hcut b hrest'
  rw [heq] at htake hdrop
  exact ⟨String.toList_inj.mp (htake.symm.trans htake'), hdrop.symm.trans hdrop'⟩

/-- A weaker relation between the values is told as well. -/
theorem mono {write : α → String} {Same Same' : α → α → Prop} (h : Tells write Same)
    (hsame : ∀ a b, Same a b → Same' a b) : Tells write Same' :=
  fun _ _ _ _ hrest hrest' heq => (h hrest hrest' heq).imp_left (hsame _ _)

/-- The value may be a part of another. -/
theorem comap {write : β → String} {Same : β → β → Prop} (h : Tells write Same) (get : α → β) :
    Tells (fun a => write (get a)) fun a b => Same (get a) (get b) :=
  fun _ _ _ _ hrest hrest' heq => h hrest hrest' heq

/-- A truth value is one of two words. -/
theorem truth : Tells Described.truth Eq := by
  have hwords : Tells Described.truth fun a b => Described.truth a = Described.truth b := by
    refine of_no_mark fun b => List.all_iff_forall_prop.mp ?_
    cases b <;> decide
  refine hwords.mono fun a b heq => ?_
  cases a <;> cases b <;> first | rfl | exact absurd heq (by decide)

/-- A digit is no mark. -/
theorem not_isMark_of_isDigit {c : Char} (h : c.isDigit = true) : ¬ IsMark c := by
  intro hmark
  have hall : ∀ mark ∈ [',', ' ', ':', ')', '\x7d'], mark.isDigit = false :=
    List.all_iff_forall_prop.mp (by decide)
  rw [hall c hmark] at h
  cases h

/-- A count is its digits. -/
theorem count : Tells Described.count Eq := by
  have hdigits : Tells Described.count fun m n => Described.count m = Described.count n := by
    refine of_no_mark fun n c hc => not_isMark_of_isDigit ?_
    rw [Described.count, String.toList_ofList] at hc
    exact Nat.isDigit_of_mem_toDigits (by decide) (by decide) hc
  refine hdigits.mono fun m n heq => ?_
  have hlists : Nat.toDigits 10 m = Nat.toDigits 10 n := String.ofList_injective heq
  have hvalue := congrArg (fun ds => Nat.ofDigitChars 10 ds 0) hlists
  simpa [Nat.ofDigitChars_toDigits] using hvalue

/-- A value that may be missing is a word, or stands in parentheses behind another word. -/
theorem optional {write : α → String} (h : Tells write Eq) :
    Tells (fun x : Option α => Described.optional (x.map write)) Eq := by
  have hsome (a : α) (rest : List Char) :
      (Described.optional (some (write a))).toList ++ rest =
        "Some(".toList ++ ((write a).toList ++ ')' :: rest) := by
    simp [Described.optional, wrapped]
  have hclosed (rest : List Char) : Follows (')' :: rest) := follows_cons (by decide) rest
  intro x y rest rest' _ _ heq
  cases x with
  | none =>
    cases y with
    | none => exact ⟨rfl, List.append_cancel_left heq⟩
    | some b =>
      dsimp only [Option.map] at heq
      rw [hsome] at heq
      exact absurd (List.cons.inj heq).1 (by decide)
  | some a =>
    cases y with
    | none =>
      dsimp only [Option.map] at heq
      rw [hsome] at heq
      exact absurd (List.cons.inj heq).1 (by decide)
    | some b =>
      dsimp only [Option.map] at heq
      rw [hsome, hsome] at heq
      obtain ⟨rfl, hrest⟩ := h (hclosed rest) (hclosed rest') (List.append_cancel_left heq)
      exact ⟨rfl, (List.cons.inj hrest).2⟩

end Tells

/-! ## Quoted texts -/

/-- The digits of a code point hold no closing brace. -/
theorem not_mem_toDigits (n : Nat) : '\x7d' ∉ Nat.toDigits 16 n := by
  have hdigit : ∀ d : Fin 16, '\x7d' ≠ Nat.digitChar d := by decide
  induction n using Nat.strongRecOn with
  | _ n ih =>
    by_cases hsmall : n < 16
    · rw [Nat.toDigits_of_lt_base hsmall, List.mem_singleton]
      exact hdigit ⟨n, hsmall⟩
    · rw [Nat.toDigits_of_base_le (by omega) (by omega), List.mem_append, List.mem_singleton]
      exact not_or_intro (ih (n / 16) (by omega)) (hdigit ⟨n % 16, Nat.mod_lt n (by omega)⟩)

/-- The character at the start of a quoted text, and what follows it. -/
def unescape : List Char → Option (Char × List Char)
  | '\\' :: 'u' :: '\x7b' :: rest =>
    match CharMap.hexValue 0 (rest.takeWhile (· ≠ '\x7d')) with
    | .ok code => some (.ofNat code, (rest.dropWhile (· ≠ '\x7d')).tail)
    | .error _ => none
  | '\\' :: '0' :: rest => some ('\x00', rest)
  | '\\' :: 't' :: rest => some ('\t', rest)
  | '\\' :: 'r' :: rest => some ('\r', rest)
  | '\\' :: 'n' :: rest => some ('\n', rest)
  | '\\' :: c :: rest => some (c, rest)
  | c :: rest => some (c, rest)
  | [] => none

/-- An escape by a code reads as its character. -/
theorem unescape_escapeCode (c : Char) (rest : List Char) :
    unescape (escapeCode c ++ rest) = some (c, rest) := by
  have hcode : CharMap.hexValue 0 (Nat.toDigits 16 c.toNat) = .ok c.toNat :=
    CharMap.hexValue_toDigits (Nat.lt_of_lt_of_le c.val.toNat_lt (by decide))
  have hdigits : ∀ d ∈ Nat.toDigits 16 c.toNat, decide (d ≠ '\x7d') = true :=
    fun d hd => decide_eq_true fun heq => not_mem_toDigits _ (heq ▸ hd)
  have htext : escapeCode c ++ rest =
      '\\' :: 'u' :: '\x7b' :: (Nat.toDigits 16 c.toNat ++ '\x7d' :: rest) := by
    simp [escapeCode]
  obtain ⟨htake, hdrop⟩ := @Text.cut_append _ _ ('\x7d' :: rest) hdigits (by simp)
  rw [htext, unescape, htake, hdrop]
  simp [hcode]

/-- Every character of a quoted text can be read back, whatever follows it. -/
theorem unescape_escapeChar (c : Char) (rest : List Char) :
    unescape (escapeChar '"' c ++ rest) = some (c, rest) := by
  unfold escapeChar
  split
  · next h => subst h; rfl
  split
  · next h => subst h; rfl
  split
  · next h => subst h; rfl
  split
  · next h => subst h; rfl
  split
  · next h => subst h; rfl
  split
  · next h => subst h; rfl
  split
  · exact unescape_escapeCode c rest
  · next hslash _ _ => simp [unescape, hslash]

/-- No character of a quoted text looks like its end. -/
theorem exists_escapeChar (c : Char) : ∃ d ds, escapeChar '"' c = d :: ds ∧ d ≠ '"' := by
  unfold escapeChar escapeCode
  split_ifs with _ _ _ _ _ hquote _
  all_goals first | exact ⟨_, _, rfl, by decide⟩ | exact ⟨_, _, rfl, hquote⟩

/-- Quoted texts end at the same quote only if they are the same. -/
theorem eq_of_escaped {cs ds rest rest' : List Char}
    (h : cs.flatMap (escapeChar '"') ++ '"' :: rest = ds.flatMap (escapeChar '"') ++ '"' :: rest') :
    cs = ds ∧ rest = rest' := by
  have hend {c : Char} {more rest : List Char} (hclash : '"' :: rest = escapeChar '"' c ++ more) :
      False := by
    obtain ⟨d, ds, hescaped, hd⟩ := exists_escapeChar c
    rw [hescaped] at hclash
    exact hd (List.cons.inj hclash).1.symm
  induction cs generalizing ds with
  | nil =>
    cases ds with
    | nil => exact ⟨rfl, (List.cons.inj h).2⟩
    | cons d ds =>
      rw [List.flatMap_cons, List.append_assoc] at h
      exact (hend h).elim
  | cons c cs ih =>
    cases ds with
    | nil =>
      rw [List.flatMap_cons, List.append_assoc] at h
      exact (hend h.symm).elim
    | cons d ds =>
      rw [List.flatMap_cons, List.flatMap_cons, List.append_assoc, List.append_assoc] at h
      have hread := congrArg unescape h
      rw [unescape_escapeChar, unescape_escapeChar] at hread
      obtain ⟨rfl, hmore⟩ := Prod.mk.inj (Option.some.inj hread)
      obtain ⟨rfl, hrest⟩ := ih hmore
      exact ⟨rfl, hrest⟩

/-- A quoted text stands between quotes. -/
theorem toList_quote_append (s : String) (rest : List Char) :
    (quote s).toList ++ rest = '"' :: (s.toList.flatMap (escapeChar '"') ++ '"' :: rest) := by
  simp [quote]

namespace Tells

/-- Quoting tells which text was quoted. -/
theorem quote : Tells Quoted.quote Eq := by
  intro s s' rest rest' _ _ heq
  rw [toList_quote_append, toList_quote_append] at heq
  obtain ⟨htext, hrest⟩ := eq_of_escaped (List.cons.inj heq).2
  exact ⟨String.toList_inj.mp htext, hrest⟩

/-! ## Lists of parts -/

/-- Two parts with a colon between them. -/
theorem pair {write : α → String} {write' : β → String} (h : Tells write Eq) (h' : Tells write' Eq) :
    Tells (fun e : α × β => write e.1 ++ ": " ++ write' e.2) Eq := by
  have hcolon (rest : List Char) : Follows (": ".toList ++ rest) := follows_cons (by decide) _
  intro e e' rest rest' hrest hrest' heq
  simp only [String.toList_append, List.append_assoc] at heq
  obtain ⟨hfirst, heq⟩ := h (hcolon _) (hcolon _) heq
  obtain ⟨hsecond, hrest⟩ := h' hrest hrest' (List.append_cancel_left heq)
  exact ⟨Prod.ext hfirst hsecond, hrest⟩

/-- The parts behind the first, and the closing brace. -/
def behind (write : α → String) (items : List α) (rest : List Char) : List Char :=
  items.flatMap (fun a => ", ".toList ++ (write a).toList) ++ '\x7d' :: rest

/-- What stands behind an item may follow a value. -/
theorem follows_behind (write : α → String) (items : List α) (rest : List Char) :
    Follows (behind write items rest) := by
  cases items with
  | nil => exact follows_cons (by decide) _
  | cons a items => exact follows_cons (by decide) _

/-- Behind an item, the next one stands after a comma and a blank. -/
theorem behind_cons (write : α → String) (a : α) (items : List α) (rest : List Char) :
    behind write (a :: items) rest = ", ".toList ++ ((write a).toList ++ behind write items rest) := by
  simp [behind]

/-- Items of which each is told by what is written of it are told by all of it. -/
theorem eq_of_behind {write : α → String} (h : Tells write Eq) {items items' : List α}
    {rest rest' : List Char} (heq : behind write items rest = behind write items' rest') :
    items = items' ∧ rest = rest' := by
  induction items generalizing items' with
  | nil =>
    cases items' with
    | nil => exact ⟨rfl, (List.cons.inj heq).2⟩
    | cons b items' => exact absurd (List.cons.inj heq).1 (by decide)
  | cons a items ih =>
    cases items' with
    | nil => exact absurd (List.cons.inj heq).1 (by decide)
    | cons b items' =>
      rw [behind_cons, behind_cons] at heq
      obtain ⟨rfl, hmore⟩ := h (follows_behind write items rest) (follows_behind write items' rest')
        (List.append_cancel_left heq)
      obtain ⟨rfl, hrest⟩ := ih hmore
      exact ⟨rfl, hrest⟩

/-- A set is its items, with commas between them and braces around them. -/
theorem toList_set_append (write : α → String) (items : List α) (rest : List Char) :
    (Described.set (items.map write)).toList ++ rest =
      '\x7b' :: match items with
        | [] => '\x7d' :: rest
        | a :: items => (write a).toList ++ behind write items rest := by
  cases items with
  | nil => simp [Described.set]
  | cons a items => simp [Described.set, behind, intercalate_cons, List.flatMap_map]

/-- Parts in braces, of which none looks like the closing brace. -/
theorem set {write : α → String} (h : Tells write Eq)
    (hstart : ∀ a, ∃ c cs, (write a).toList = c :: cs ∧ c ≠ '\x7d') :
    Tells (fun items : List α => Described.set (items.map write)) Eq := by
  have hclash {a : α} {more rest : List Char} (heq : '\x7d' :: rest = (write a).toList ++ more) :
      False := by
    obtain ⟨c, cs, hwrite, hc⟩ := hstart a
    rw [hwrite] at heq
    exact hc (List.cons.inj heq).1.symm
  intro items items' rest rest' _ _ heq
  dsimp only at heq
  rw [toList_set_append, toList_set_append] at heq
  have heq := (List.cons.inj heq).2
  cases items with
  | nil =>
    cases items' with
    | nil => exact ⟨rfl, (List.cons.inj heq).2⟩
    | cons b items' => exact (hclash heq).elim
  | cons a items =>
    cases items' with
    | nil => exact (hclash heq.symm).elim
    | cons b items' =>
      obtain ⟨rfl, hmore⟩ := h (follows_behind write items rest) (follows_behind write items' rest')
        heq
      obtain ⟨rfl, hrest⟩ := eq_of_behind h hmore
      exact ⟨rfl, hrest⟩

/-- A map of texts is told by its entries in order. -/
theorem entries :
    Tells (fun m : Std.ExtTreeMap String String =>
      Described.map (m.toList.map fun e => (Quoted.quote e.1, Quoted.quote e.2))) Eq := by
  have hstart (e : String × String) : ∃ c cs,
      (Quoted.quote e.1 ++ ": " ++ Quoted.quote e.2).toList = c :: cs ∧ c ≠ '\x7d' :=
    ⟨'"', _, by rw [String.toList_append, String.toList_append, List.append_assoc,
      toList_quote_append], by decide⟩
  have hentries := (set (pair quote quote) hstart).comap
    fun m : Std.ExtTreeMap String String => m.toList
  intro m m' rest rest' hrest hrest' heq
  simp only [Described.map, List.map_map] at heq
  exact (hentries hrest hrest' heq).imp_left Std.ExtTreeMap.toList_inj.mp

end Tells

/-! ## Records -/

/-- A field of a record: how it is written, and which values of it are told apart. -/
structure Field (α : Type) where
  key : String
  write : α → String
  Same : α → α → Prop
  tells : Tells write Same

namespace Field

/-- A field that has a value of the record. -/
def ofTells {β : Type} (key : String) {write : β → String} {Same : β → β → Prop}
    (h : Tells write Same) (get : α → β) : Field α :=
  ⟨key, fun a => write (get a), fun a b => Same (get a) (get b), h.comap get⟩

/-- The record of a value. -/
def record (name : String) (fields : List (Field α)) (a : α) : String :=
  Described.record name (fields.map fun f => (f.key, f.write a))

/-- The fields behind the first, and the closing brace. -/
def behind (a : α) (fields : List (Field α)) : List Char :=
  fields.flatMap (fun f => ", ".toList ++ (f.key.toList ++ (": ".toList ++ (f.write a).toList))) ++
    " \x7d".toList

/-- What stands behind a field may follow a value. -/
theorem follows_behind (a : α) (fields : List (Field α)) : Follows (behind a fields) := by
  cases fields with
  | nil => exact follows_cons (by decide) _
  | cons f fields => exact follows_cons (by decide) _

/-- Behind a field, the next one stands with its key after a comma and a blank. -/
theorem behind_cons (a : α) (f : Field α) (fields : List (Field α)) :
    behind a (f :: fields) =
      (", ".toList ++ (f.key.toList ++ ": ".toList)) ++ ((f.write a).toList ++ behind a fields) := by
  simp [behind]

/-- A record begins with its name and its first field. -/
theorem toList_record_cons (name : String) (f : Field α) (fields : List (Field α)) (a : α) :
    (record name (f :: fields) a).toList =
      (name.toList ++ (" \x7b ".toList ++ (f.key.toList ++ ": ".toList))) ++
        ((f.write a).toList ++ behind a fields) := by
  simp [record, Described.record, behind, intercalate_cons, List.flatMap_map]

/-- What stands behind a field tells all other fields. -/
theorem same_of_behind {fields : List (Field α)} {a b : α} (h : behind a fields = behind b fields) :
    ∀ f ∈ fields, f.Same a b := by
  induction fields with
  | nil => simp
  | cons f fields ih =>
    rw [behind_cons, behind_cons] at h
    obtain ⟨hfirst, hmore⟩ := f.tells (follows_behind a fields) (follows_behind b fields)
      (List.append_cancel_left h)
    exact List.forall_mem_cons.mpr ⟨hfirst, ih hmore⟩

/-- Two values with the same record agree in every field. -/
theorem same_of_record {name : String} {fields : List (Field α)} {a b : α}
    (h : record name fields a = record name fields b) : ∀ f ∈ fields, f.Same a b := by
  cases fields with
  | nil => simp
  | cons f fields =>
    have hlists := congrArg String.toList h
    rw [toList_record_cons, toList_record_cons] at hlists
    obtain ⟨hfirst, hmore⟩ := f.tells (follows_behind a fields) (follows_behind b fields)
      (List.append_cancel_left hlists)
    exact List.forall_mem_cons.mpr ⟨hfirst, same_of_behind hmore⟩

end Field

end Text.Described

/-! ## Weights -/

/-- The characters of written numbers. -/
def IsNumeral (c : Char) : Prop := c.isDigit = true ∨ c ∈ ['.', '-', 'e', 'i', 'n', 'f', 'N', 'a']

instance (c : Char) : Decidable (IsNumeral c) := inferInstanceAs (Decidable (_ ∨ _))

namespace IsNumeral

/-- A character of a numeral is no mark. -/
theorem not_isMark {c : Char} (h : IsNumeral c) : ¬ Text.Described.IsMark c := by
  rcases h with h | h
  · exact Text.Described.Tells.not_isMark_of_isDigit h
  · intro hmark
    have hall : ∀ d ∈ ['.', '-', 'e', 'i', 'n', 'f', 'N', 'a'], ¬ Text.Described.IsMark d :=
      List.all_iff_forall_prop.mp (by decide)
    exact hall c h hmark

/-- Digits are characters of numerals, -/
theorem of_mem_toDigits {n : Nat} {c : Char} (h : c ∈ Nat.toDigits 10 n) : IsNumeral c :=
  .inl (Nat.isDigit_of_mem_toDigits (by decide) (by decide) h)

/-- zeros are, -/
theorem of_mem_replicate {n : Nat} {c : Char} (h : c ∈ List.replicate n '0') : IsNumeral c := by
  rw [List.eq_of_mem_replicate h]
  exact .inl rfl

/-- those of whole numbers are, -/
theorem of_mem_toString {i : Int} {c : Char} (h : c ∈ (toString i).toList) : IsNumeral c := by
  cases i with
  | ofNat n => exact of_mem_toDigits (by simpa [toString, Int.repr] using h)
  | negSucc n =>
    have hdigits : c = '-' ∨ c ∈ Nat.toDigits 10 (n + 1) := by
      simpa [toString, Int.repr] using h
    rcases hdigits with rfl | hdigits
    · exact .inr (by decide)
    · exact of_mem_toDigits hdigits

/-- those of decimals that are written positionally are, -/
theorem of_mem_positional {d : Decimal} {c : Char} (h : c ∈ d.positional.toList) : IsNumeral c := by
  have hpoint : IsNumeral '.' := .inr (by decide)
  have hzero : IsNumeral '0' := .inl rfl
  unfold Decimal.positional at h
  dsimp only at h
  split at h
  · rw [String.toList_append, String.toList_ofList, List.mem_append, List.mem_append] at h
    rcases h with (h | h) | h
    · exact of_mem_toDigits h
    · exact of_mem_replicate h
    · have htail : c = '.' ∨ c = '0' := by simpa using h
      rcases htail with rfl | rfl
      · exact hpoint
      · exact hzero
  split at h
  · rw [String.toList_ofList, List.mem_append, List.mem_cons] at h
    rcases h with h | rfl | h
    · exact of_mem_toDigits (List.mem_of_mem_take h)
    · exact hpoint
    · exact of_mem_toDigits (List.mem_of_mem_drop h)
  · simp only [String.toList_append, String.toList_ofList, List.mem_append] at h
    rcases h with h | h | h
    · have hhead : c = '0' ∨ c = '.' := by simpa using h
      rcases hhead with rfl | rfl
      · exact hzero
      · exact hpoint
    · exact of_mem_replicate h
    · exact of_mem_toDigits h

/-- and those of decimals with an exponent. -/
theorem of_mem_scientific {d : Decimal} {c : Char} (h : c ∈ d.scientific.toList) : IsNumeral c := by
  have hpower (hc : c ∈ ("e" ++ toString (d.point - 1)).toList) : IsNumeral c := by
    rw [String.toList_append, List.mem_append] at hc
    rcases hc with hc | hc
    · have hletter : c = 'e' := by simpa using hc
      exact .inr (by rw [hletter]; decide)
    · exact of_mem_toString hc
  have hdigit {digits : List Char} (heq : Nat.toDigits 10 d.digits = digits) (hc : c ∈ digits) :
      IsNumeral c := of_mem_toDigits (heq ▸ hc)
  unfold Decimal.scientific at h
  dsimp only at h
  split at h
  · rw [String.toList_append, List.mem_append] at h
    rcases h with h | h
    · have hzero : c = '0' := by simpa using h
      exact .inl (by rw [hzero]; rfl)
    · exact hpower h
  · next first heq =>
    rw [String.toList_append, String.toList_ofList, List.mem_append] at h
    rcases h with h | h
    · exact hdigit heq h
    · exact hpower h
  · next first rest _ heq =>
    rw [String.toList_append, String.toList_ofList, List.mem_append, List.mem_cons,
      List.mem_cons] at h
    rcases h with (h | h | h) | h
    · exact hdigit heq (h ▸ List.mem_cons_self)
    · exact .inr (by rw [h]; decide)
    · exact hdigit heq (List.mem_cons_of_mem first h)
    · exact hpower h

/-- A written weight holds no mark. -/
theorem of_mem_describeBoost {x : Binary32} {c : Char} (h : c ∈ (Token.describeBoost x).toList) :
    IsNumeral c := by
  have hword {word : String} (hc : c ∈ word.toList)
      (hall : word.toList.all (fun d => decide (IsNumeral d)) = true) : IsNumeral c :=
    List.all_iff_forall_prop.mp hall c hc
  unfold Token.describeBoost at h
  split at h
  · exact hword h (by decide)
  split at h
  · split at h
    · exact hword h (by decide)
    · exact hword h (by decide)
  unfold Binary32.writeFinite at h
  dsimp only at h
  have hsign (hc : c ∈ (if x.isNegative then "-" else "").toList) : IsNumeral c := by
    split at hc
    · exact hword hc (by decide)
    · exact hword hc (by decide)
  split at h
  · rw [String.toList_append, List.mem_append] at h
    rcases h with h | h
    · exact hsign h
    · exact hword h (by decide)
  · rw [String.toList_append, List.mem_append] at h
    rcases h with h | h
    · exact hsign h
    split at h
    · exact of_mem_positional h
    · exact of_mem_scientific h

end IsNumeral

/-! ## Tokens -/

namespace Token

open Text.Described (Tells)

/-- Weights are told as far as they are written differently. -/
theorem tells_describeBoost : Tells describeBoost fun x y => describeBoost x = describeBoost y :=
  Tells.of_no_mark fun _ _ hc => (IsNumeral.of_mem_describeBoost hc).not_isMark

/-- The fields of a token in its description. -/
def descriptionFields : List (Text.Described.Field Token) :=
  [.ofTells "text" Tells.quote text,
   .ofTells "original_text" (Tells.optional Tells.quote) unfiltered,
   .ofTells "boost" tells_describeBoost boost,
   .ofTells "stopped" Tells.truth stopped,
   .ofTells "position" (Tells.optional Tells.count) position,
   .ofTells "start_char" (Tells.optional Tells.count) startOffset,
   .ofTells "end_char" (Tells.optional Tells.count) endOffset,
   .ofTells "attributes" Tells.entries attributes,
   .ofTells "mode" Tells.quote mode,
   .ofTells "remove_stopwords" Tells.truth removeStopped]

/-- **A description tells its token.** Two tokens have the same description if and only if they agree
in everything but their weights, and their weights are written alike. -/
theorem describe_eq_iff (t u : Token) :
    t.describe = u.describe ↔
      { t with boost := u.boost } = u ∧ describeBoost t.boost = describeBoost u.boost := by
  constructor
  · intro h
    have hrecord : Text.Described.Field.record "Token" descriptionFields t =
        Text.Described.Field.record "Token" descriptionFields u := h
    have hfields := Text.Described.Field.same_of_record hrecord
    simp only [descriptionFields, List.forall_mem_cons] at hfields
    obtain ⟨htext, hunfiltered, hboost, hstopped, hposition, hstart, hend, hattributes, hmode,
      hremove, -⟩ := hfields
    refine ⟨?_, hboost⟩
    obtain ⟨text, unfiltered, boost, stopped, position, first, last, attributes, mode, remove⟩ := t
    obtain ⟨text', unfiltered', boost', stopped', position', first', last', attributes', mode',
      remove'⟩ := u
    cases htext
    cases hunfiltered
    cases hstopped
    cases hposition
    cases hstart
    cases hend
    cases hattributes
    cases hmode
    cases hremove
    rfl
  · rintro ⟨heq, hboost⟩
    rw [← heq]
    simp only [describe, hboost]

end Token

end TextAnalysis
