import Mathlib.Algebra.Group.Nat.Defs
import Mathlib.Data.Bool.AllAny
import Mathlib.Data.List.Forall2
import TextAnalysis.Json.Records
import TextAnalysis.Proofs.Text.Trimming

/-!
# Reading what has been printed

The reader gives back every value that has been printed, on one line or over several, as long as its
integers have 64 bits and its decimals are whole numbers. The reader goes through a text with fuel, one
unit for every step into a value, and stops at a number only where something else than a digit follows.
So what is said of the printed form of a value is that the reader gives it back with any fuel that
exceeds its length and before anything that may follow a value (`Reads`). This goes from strings and
numbers to arrays and objects. The two forms differ in the blanks between the parts of a value, which
the reader passes over (`Layout`).

Main statements: `readText_pretty` and `readText_line`.
-/

set_option autoImplicit false

namespace TextAnalysis

/-! ## Decimals -/

namespace Decimal

/-- The decimal is a whole number in lowest terms, which is written positionally. -/
def IsWhole (d : Decimal) : Prop := d.digits % 10 ≠ 0 ∧ 0 ≤ d.scale ∧ d.point < 14

instance (d : Decimal) : Decidable d.IsWhole := inferInstanceAs (Decidable (_ ∧ _))

/-- Ten times a multiple by a power of ten is a multiple by the next power. -/
theorem mul_pow_succ (n zeros : Nat) : n * 10 ^ (zeros + 1) = 10 * (n * 10 ^ zeros) := by
  rw [Nat.pow_succ, ← Nat.mul_assoc, Nat.mul_comm]

/-- Zeros at the end of the digits are taken off, all of them and no more. -/
theorem trimmed_mul_pow {n : Nat} (hn : n % 10 ≠ 0) (scale : Int) {zeros fuel : Nat}
    (h : zeros ≤ fuel) : trimmed ⟨n * 10 ^ zeros, scale⟩ fuel = ⟨n, scale + zeros⟩ := by
  induction zeros generalizing scale fuel with
  | zero =>
    rw [Nat.pow_zero, Nat.mul_one, Int.natCast_zero, Int.add_zero]
    cases fuel with
    | zero => rfl
    | succ fuel => simp [trimmed, hn]
  | succ zeros ih =>
    obtain ⟨fuel, rfl⟩ : ∃ m, fuel = m + 1 := ⟨fuel - 1, by omega⟩
    have hpos : 0 < 10 * (n * 10 ^ zeros) := by
      have hn' : 0 < n := Nat.pos_of_ne_zero fun hzero => hn (by rw [hzero])
      have hpow : 0 < 10 ^ zeros := Nat.pow_pos (by decide)
      exact Nat.mul_pos (by decide) (Nat.mul_pos hn' hpow)
    have hmore := ih (scale + 1) (Nat.le_of_succ_le_succ h)
    rw [mul_pow_succ, trimmed, if_pos (by simpa using Nat.ne_of_gt hpos),
      Nat.mul_div_cancel_left _ (by decide), hmore]
    congr 1
    omega

/-- A power of ten appends zeros to the digits. -/
theorem toDigits_mul_pow {n : Nat} (hn : 0 < n) (zeros : Nat) :
    Nat.toDigits 10 (n * 10 ^ zeros) = Nat.toDigits 10 n ++ List.replicate zeros '0' := by
  induction zeros with
  | zero => simp
  | succ zeros ih =>
    have hpos : 0 < n * 10 ^ zeros := Nat.mul_pos hn (Nat.pow_pos (by decide))
    rw [mul_pow_succ, Nat.toDigits_of_base_le (by decide) (by omega),
      Nat.mul_div_cancel_left _ (by decide), Nat.mul_mod_right, ih, List.replicate_succ',
      List.append_assoc]
    rfl

end Decimal

namespace Json

/-! ## Strings -/

/-- The escapes of control characters have four digits, which give the character back. -/
theorem mapM_controlDigits (n : Fin 32) :
    ((controlDigits (Char.ofNat n)).mapM hexDigit?).map (fun vs => vs.foldl (fun n v => 16 * n + v) 0) =
      some n.val ∧ (controlDigits (Char.ofNat n)).length = 4 := by
  revert n
  decide

/-- The code of a control character is read. -/
theorem readUnit_controlDigits {c : Char} (h : c.toNat < 32) (rest : List Char) :
    readUnit (controlDigits c ++ rest) = .ok (c.toNat, rest) := by
  obtain ⟨hvalues, hlength⟩ := mapM_controlDigits ⟨c.toNat, h⟩
  simp only [Char.ofNat_toNat] at hvalues hlength
  obtain ⟨values, hmap, hfold⟩ := Option.map_eq_some_iff.mp hvalues
  match hdigits : controlDigits c, hlength with
  | [a, b, d, e], _ =>
    rw [hdigits] at hmap
    simp only [List.cons_append, List.nil_append, readUnit, hmap, hfold]

/-- The reader takes one printed character at a time. -/
theorem readContent_escapeChar (c : Char) (read : List Char) (fuel : Nat) (rest : List Char) :
    readContent (.ok read) (fuel + 1) (escapeChar c ++ rest) =
      readContent (.ok (c :: read)) fuel rest := by
  unfold escapeChar
  split
  · next h => subst h; rfl
  split
  · next h => subst h; rfl
  split
  · next h => subst h; rfl
  split
  · next h => subst h; rfl
  split
  · next h => subst h; rfl
  split
  · next h => subst h; rfl
  split
  · next h => subst h; rfl
  split
  · next h =>
    have hunit := readUnit_controlDigits h rest
    simp only [List.cons_append, readContent, hunit]
    rw [if_neg (by simp; omega), if_neg (by simp; omega), Char.ofNat_toNat]
    rfl
  · next hquote hslash _ _ _ _ _ hcontrol =>
    simp only [List.cons_append, List.nil_append, readContent]
    split
    · next heq => cases heq
    · next heq => exact absurd (List.cons.inj heq).1 hquote
    · next heq => exact absurd (List.cons.inj heq).1 hslash
    · next heq => exact absurd (List.cons.inj heq).1 hslash
    · next heq =>
      obtain ⟨rfl, rfl⟩ := List.cons.inj heq
      exact if_neg hcontrol

/-- A quoted text is read to its closing quote. -/
theorem readContent_quoted (text read : List Char) {fuel : Nat} (h : text.length < fuel)
    (rest : List Char) :
    readContent (.ok read) fuel (text.flatMap escapeChar ++ '"' :: rest) =
      (.ok (.ok (text.reverse ++ read)), some rest) := by
  induction text generalizing read fuel with
  | nil =>
    obtain ⟨fuel, rfl⟩ : ∃ n, fuel = n + 1 := ⟨fuel - 1, by simp at h; omega⟩
    rfl
  | cons c text ih =>
    obtain ⟨fuel, rfl⟩ : ∃ n, fuel = n + 1 := ⟨fuel - 1, by simp at h; omega⟩
    rw [List.flatMap_cons, List.append_assoc, readContent_escapeChar, ih _ (by simpa using h)]
    simp

/-- Escaping makes no text shorter. -/
theorem length_le_length_flatMap_escapeChar (text : List Char) :
    text.length ≤ (text.flatMap escapeChar).length := by
  induction text with
  | nil => exact Nat.le_refl 0
  | cons c text ih =>
    have hone : 1 ≤ (escapeChar c).length := by
      unfold escapeChar
      repeat' split
      all_goals simp
    simp only [List.flatMap_cons, List.length_append, List.length_cons]
    omega

/-- A string comes back behind its opening quote. -/
theorem readString_quoted (s : String) (rest : List Char) :
    readString (s.toList.flatMap escapeChar ++ '"' :: rest) = (.string s, some rest) := by
  have hlength := length_le_length_flatMap_escapeChar s.toList
  unfold readString
  rw [readContent_quoted _ _ (by simp only [List.length_append]; omega)]
  simp

/-! ## Numbers -/

/-- What may follow a value: nothing, or what follows an item or a member, or stands behind the last
one. -/
def Ends (rest : List Char) : Prop := ∀ c ∈ rest.head?, c ∈ [',', ']', '\x7d', '\n']

/-- No digit follows a value. -/
theorem Ends.not_isDigit {c : Char} {rest : List Char} (h : Ends (c :: rest)) : c.isDigit = false := by
  have hall : ∀ d ∈ [',', ']', '\x7d', '\n'], d.isDigit = false :=
    List.all_iff_forall_prop.mp (by decide)
  exact hall c (h c rfl)

/-- Nor does one stand at the start of what follows. -/
theorem Ends.head {rest : List Char} (h : Ends rest) : ∀ c ∈ rest.head?, c.isDigit = false := by
  intro c hc
  obtain ⟨more, rfl⟩ := List.head?_eq_some_iff.mp hc
  exact h.not_isDigit

/-- Numbers are written in digits, -/
theorem isDigit_of_mem_toDigits {n : Nat} : ∀ c ∈ Nat.toDigits 10 n, c.isDigit = true :=
  fun _ hc => Nat.isDigit_of_mem_toDigits (by omega) (by omega) hc

/-- and their digits have their value. -/
theorem digitsValue_toDigits (n : Nat) : digitsValue (Nat.toDigits 10 n) = n :=
  Nat.ofDigitChars_toDigits (by omega) (by omega)

/-- A number that is not zero starts with another digit than zero. -/
theorem exists_head_toDigits {n : Nat} (h : 0 < n) :
    ∃ c cs, Nat.toDigits 10 n = c :: cs ∧ c ≠ '0' := by
  induction n using Nat.strongRecOn with
  | _ n ih =>
    by_cases hsmall : n < 10
    · have hdigit : ∀ d : Fin 10, 0 < d.val → d.val.digitChar ≠ '0' := by decide
      exact ⟨n.digitChar, [], Nat.toDigits_of_lt_base hsmall, hdigit ⟨n, hsmall⟩ h⟩
    · obtain ⟨c, cs, hdigits, hc⟩ := ih (n / 10) (by omega) (by omega)
      rw [Nat.toDigits_of_base_le (by omega) (by omega), hdigits]
      exact ⟨c, cs ++ _, rfl, hc⟩

/-- Whole numbers of 64 bits, as the reader takes them. -/
def IsWhole (negative : Bool) (n : Nat) : Prop :=
  if negative then 0 < n ∧ n ≤ Nat.pow 2 63 else n ≤ Nat.pow 2 64 - 1

/-- Digits that are followed by nothing of a number are read as a whole number. -/
theorem readFraction_of_ends {negative : Bool} {n : Nat} {whole rest : List Char}
    (hwhole : digitsValue whole = n) (hn : IsWhole negative n) (h : Ends rest) :
    readFraction negative whole rest = (.integer negative n, some rest) := by
  unfold readFraction
  split
  · next after => exact absurd (h '.' rfl) (by decide)
  · next after => exact absurd (h 'e' rfl) (by decide)
  · next after => exact absurd (h 'E' rfl) (by decide)
  · dsimp only
    rw [hwhole, if_pos]
    unfold IsWhole at hn
    cases negative with
    | true => simp at hn ⊢; omega
    | false => simp at hn ⊢; omega

/-- The digits in front of the point are read to their end. -/
theorem readNumber_of_not_isDigit (negative : Bool) (n : Nat) {rest : List Char}
    (h : ∀ c ∈ rest.head?, c.isDigit = false) :
    readNumber negative (Nat.toDigits 10 n ++ rest) =
      readFraction negative (Nat.toDigits 10 n) rest := by
  by_cases hzero : n = 0
  · subst hzero
    rw [Nat.toDigits_zero, List.singleton_append]
    cases rest with
    | nil => rfl
    | cons c rest => simp only [readNumber, h c rfl, Bool.false_eq_true, if_false]
  · obtain ⟨c, cs, hdigits, hc⟩ := exists_head_toDigits (Nat.pos_of_ne_zero hzero)
    have hall := @isDigit_of_mem_toDigits n
    rw [hdigits] at hall
    obtain ⟨htake, hdrop⟩ := Text.cut_append (fun d hd => hall d (List.mem_cons_of_mem c hd)) h
    rw [hdigits, List.cons_append, readNumber]
    · simp only [hall c List.mem_cons_self, if_true, htake, hdrop]
    · exact hc

/-- A number comes back behind its sign. -/
theorem readNumber_toDigits {negative : Bool} {n : Nat} (hn : IsWhole negative n) {rest : List Char}
    (h : Ends rest) :
    readNumber negative (Nat.toDigits 10 n ++ rest) = (.integer negative n, some rest) := by
  rw [readNumber_of_not_isDigit negative n h.head]
  exact readFraction_of_ends (digitsValue_toDigits n) hn h

/-- What is read behind the point of a whole number in lowest terms. -/
theorem decimalDraft_whole {n zeros : Nat} (hn : n % 10 ≠ 0)
    (hpoint : Decimal.point ⟨n, zeros⟩ < 14) (negative : Bool) :
    decimalDraft negative ⟨n * 10 ^ (zeros + 1), -1⟩ = .decimal negative ⟨n, zeros⟩ := by
  have hpos : 0 < n := Nat.pos_of_ne_zero fun hzero => hn (by rw [hzero])
  have hlength : (Nat.toDigits 10 (n * 10 ^ (zeros + 1))).length =
      (Nat.toDigits 10 n).length + (zeros + 1) := by
    rw [Decimal.toDigits_mul_pow hpos, List.length_append, List.length_replicate]
  have hsame : Decimal.point ⟨n * 10 ^ (zeros + 1), -1⟩ = Decimal.point ⟨n, zeros⟩ := by
    simp only [Decimal.point, hlength]
    omega
  have hrange : isOutOfRange ⟨n * 10 ^ (zeros + 1), -1⟩ = false := by
    unfold isOutOfRange
    split
    · rfl
    · rw [hsame, if_neg (by unfold maxPoint; omega), if_pos (by unfold maxPoint; omega)]
  have hlow : ¬ Decimal.point ⟨n * 10 ^ (zeros + 1), -1⟩ < -400 := by
    rw [hsame]
    unfold Decimal.point
    dsimp only
    omega
  unfold decimalDraft
  rw [hrange, if_neg Bool.false_ne_true, if_neg hlow, hlength,
    Decimal.trimmed_mul_pow hn (-1) (by omega)]
  congr 2
  omega

/-- A whole decimal comes back behind its sign, in lowest terms as it was. -/
theorem readNumber_positional {d : Decimal} (hd : d.IsWhole) (negative : Bool) {rest : List Char}
    (h : Ends rest) :
    readNumber negative (d.positional.toList ++ rest) = (.decimal negative d, some rest) := by
  obtain ⟨n, scale⟩ := d
  obtain ⟨hn, hscale, hpoint⟩ := hd
  obtain ⟨zeros, rfl⟩ := Int.eq_ofNat_of_zero_le hscale
  dsimp only at hn hscale
  have hpos : 0 < n := Nat.pos_of_ne_zero fun hzero => hn (by rw [hzero])
  have htext : (Decimal.positional ⟨n, zeros⟩).toList ++ rest =
      Nat.toDigits 10 (n * 10 ^ zeros) ++ '.' :: '0' :: rest := by
    have hpositional : Decimal.positional ⟨n, zeros⟩ =
        String.ofList (Nat.toDigits 10 n ++ List.replicate zeros '0') ++ ".0" := by
      simp [Decimal.positional]
    rw [hpositional, Decimal.toDigits_mul_pow hpos]
    simp
  have hvalue : digitsValue (Nat.toDigits 10 (n * 10 ^ zeros) ++ ['0']) = n * 10 ^ (zeros + 1) := by
    have hdigits : Nat.toDigits 10 (n * 10 ^ (zeros + 1)) =
        Nat.toDigits 10 (n * 10 ^ zeros) ++ ['0'] := by
      rw [Decimal.toDigits_mul_pow hpos, Decimal.toDigits_mul_pow hpos, List.replicate_succ',
        List.append_assoc]
    rw [← hdigits, digitsValue_toDigits]
  obtain ⟨htake, hdrop⟩ : ('0' :: rest).takeWhile Char.isDigit = ['0'] ∧
      ('0' :: rest).dropWhile Char.isDigit = rest :=
    @Text.cut_append Char.isDigit ['0'] rest (List.forall_mem_singleton.mpr rfl) h.head
  have hdraft := decimalDraft_whole hn hpoint negative
  rw [htext, readNumber_of_not_isDigit negative _ (by simp), readFraction]
  simp only [htake, hdrop, hvalue]
  split
  · next after => exact absurd (h 'e' rfl) (by decide)
  · next after => exact absurd (h 'E' rfl) (by decide)
  · exact congrArg (·, some rest) hdraft

/-! ## Layouts -/

/-- The blanks of a written value: those in front of its parts and of its closing bracket, which may
depend on how deep it stands, and those behind colons. -/
structure Layout where
  gap : Nat → List Char
  space : List Char
  gap_blank : ∀ depth, ∀ c ∈ gap depth, isBlank c = true
  space_blank : ∀ c ∈ space, isBlank c = true
  ends_gap : ∀ depth, Ends (gap depth ++ [']']) ∧ Ends (gap depth ++ ['\x7d'])

/-- Blanks are passed over. -/
theorem skipBlanks_append {blanks : List Char} (h : ∀ c ∈ blanks, isBlank c = true)
    (text : List Char) : skipBlanks (blanks ++ text) = skipBlanks text :=
  List.dropWhile_append_of_pos h

/-- What begins with no blank stays as it is. -/
theorem skipBlanks_of_not_blank {c : Char} (h : isBlank c = false) (text : List Char) :
    skipBlanks (c :: text) = c :: text := by
  simp [skipBlanks, h]

/-- A new line with its indentation. -/
theorem toList_newLine (depth : Nat) :
    (newLine depth).toList = '\n' :: List.replicate (2 * depth) ' ' := by
  rw [newLine, String.toList_append, String.toList_ofList, String.toList_ofList,
    List.singleton_append]

namespace Layout

/-- No blanks at all. -/
def onOneLine : Layout where
  gap _ := []
  space := []
  gap_blank _ _ h := absurd h List.not_mem_nil
  space_blank _ h := absurd h List.not_mem_nil
  ends_gap _ := ⟨by simp [Ends], by simp [Ends]⟩

/-- Every part on a line of its own, indented by its depth. -/
def onLines : Layout where
  gap depth := (newLine depth).toList
  space := [' ']
  gap_blank depth c h := by
    rw [toList_newLine] at h
    rcases List.mem_cons.mp h with rfl | h
    · rfl
    · rw [List.eq_of_mem_replicate h]
      rfl
  space_blank c h := by
    rw [List.mem_singleton.mp h]
    rfl
  ends_gap depth := by
    rw [toList_newLine]
    exact ⟨by simp [Ends], by simp [Ends]⟩

variable (l : Layout)

/-- What follows the first part between brackets: the other parts, each behind a comma, and the
closing bracket. -/
def following (depth : Nat) (closing : Char) : List (List Char) → List Char
  | [] => l.gap depth ++ [closing]
  | part :: rest => ',' :: (l.gap (depth + 1) ++ (part ++ following depth closing rest))

/-- Parts between brackets; brackets alone where there is no part. -/
def between (depth : Nat) (opening closing : Char) : List (List Char) → List Char
  | [] => [opening, closing]
  | part :: rest => opening :: (l.gap (depth + 1) ++ (part ++ l.following depth closing rest))

mutual

/-- A value in the layout, at a depth. -/
def write (depth : Nat) : Json → List Char
  | .array items => l.between depth '[' ']' (writeItems (depth + 1) items)
  | .object members => l.between depth '\x7b' '\x7d' (writeMembers (depth + 1) members)
  | scalar => (writeScalar scalar).toList

/-- The items of an array. -/
def writeItems (depth : Nat) : List Json → List (List Char)
  | [] => []
  | j :: rest => write depth j :: writeItems depth rest

/-- The members of an object. -/
def writeMembers (depth : Nat) : List (String × Json) → List (List Char)
  | [] => []
  | (key, j) :: rest =>
    ((quote key).toList ++ (':' :: (l.space ++ write depth j))) :: writeMembers depth rest

end

/-- Parts joined by commas, with the closing bracket behind them. -/
theorem intercalate_append (depth : Nat) (closing : Char) (part : List Char)
    (rest : List (List Char)) :
    List.intercalate (',' :: l.gap (depth + 1)) (part :: rest) ++ (l.gap depth ++ [closing]) =
      part ++ l.following depth closing rest := by
  induction rest generalizing part with
  | nil => rw [List.intercalate_singleton, following]
  | cons next rest ih =>
    rw [List.intercalate_cons_cons, List.append_assoc, ih, following]
    simp only [List.append_assoc, List.cons_append]

/-- What follows a part may follow a value. -/
theorem ends_following (depth : Nat) {closing : Char} (hclosing : closing = ']' ∨ closing = '\x7d')
    (parts : List (List Char)) (rest : List Char) :
    Ends (l.following depth closing parts ++ rest) := by
  intro c hc
  cases parts with
  | nil =>
    have hends : Ends (l.gap depth ++ [closing]) := by
      rcases hclosing with rfl | rfl
      · exact (l.ends_gap depth).1
      · exact (l.ends_gap depth).2
    refine hends c ?_
    rw [following] at hc
    cases hgap : l.gap depth with
    | nil => rwa [hgap] at hc
    | cons d gap => rwa [hgap] at hc
  | cons part parts =>
    rw [← Option.some.inj hc]
    exact List.mem_cons_self

end Layout

/-- A block of parts on lines of their own. -/
theorem toList_block (depth : Nat) {opening closing : String} {o c : Char}
    (hopening : opening.toList = [o]) (hclosing : closing.toList = [c]) (parts : List String) :
    (block depth opening closing parts).toList =
      Layout.onLines.between depth o c (parts.map String.toList) := by
  unfold block
  cases parts with
  | nil => simp [Layout.between, hopening, hclosing]
  | cons part rest =>
    have hseparator : ("," ++ newLine (depth + 1)).toList =
        ',' :: Layout.onLines.gap (depth + 1) := by
      rw [String.toList_append]
      rfl
    have hjoined := Layout.onLines.intercalate_append depth c part.toList (rest.map String.toList)
    rw [if_neg (by simp)]
    simp only [String.toList_append, String.toList_intercalate, hseparator, List.map_cons,
      List.append_assoc, hopening, hclosing, Layout.between, ← hjoined, List.singleton_append]
    rfl

/-- Parts between brackets on one line. -/
theorem toList_bracketed {opening closing : String} {o c : Char} (hopening : opening.toList = [o])
    (hclosing : closing.toList = [c]) (depth : Nat) (parts : List String) :
    (opening ++ String.intercalate "," parts ++ closing).toList =
      Layout.onOneLine.between depth o c (parts.map String.toList) := by
  cases parts with
  | nil => simp [Layout.between, hopening, hclosing]
  | cons part rest =>
    have hjoined := Layout.onOneLine.intercalate_append depth c part.toList (rest.map String.toList)
    simp only [String.toList_append, String.toList_intercalate, List.map_cons, hopening, hclosing,
      Layout.between, ← hjoined, List.singleton_append]
    rfl

mutual

/-- The form over several lines is the value in the layout on lines. -/
theorem toList_prettyAt : ∀ (j : Json) (depth : Nat),
    (prettyAt depth j).toList = Layout.onLines.write depth j
  | .null, _ | .bool _, _ | .integer _ _, _ | .decimal _ _, _ | .string _, _ => rfl
  | .array items, depth => by
    rw [prettyAt, Layout.write, toList_block depth String.toList_ofList String.toList_ofList,
      toList_prettyItems items]
  | .object members, depth => by
    rw [prettyAt, Layout.write, toList_block depth String.toList_ofList String.toList_ofList,
      toList_prettyMembers members]

/-- So are its items -/
theorem toList_prettyItems : ∀ (items : List Json) (depth : Nat),
    (prettyItems depth items).map String.toList = Layout.onLines.writeItems depth items
  | [], _ => rfl
  | j :: rest, depth => by
    rw [prettyItems, List.map_cons, Layout.writeItems, toList_prettyAt j, toList_prettyItems rest]

/-- and its members. -/
theorem toList_prettyMembers : ∀ (members : List (String × Json)) (depth : Nat),
    (prettyMembers depth members).map String.toList = Layout.onLines.writeMembers depth members
  | [], _ => rfl
  | (key, j) :: rest, depth => by
    rw [prettyMembers, List.map_cons, Layout.writeMembers, ← toList_prettyAt j,
      toList_prettyMembers rest, String.toList_append, String.toList_append, List.append_assoc]
    rfl

end

mutual

/-- The form on one line is the value in the layout without blanks. -/
theorem toList_compact : ∀ (j : Json) (depth : Nat),
    (compact j).toList = Layout.onOneLine.write depth j
  | .null, _ | .bool _, _ | .integer _ _, _ | .decimal _ _, _ | .string _, _ => rfl
  | .array items, depth => by
    rw [compact, Layout.write, toList_bracketed String.toList_ofList String.toList_ofList depth,
      toList_compactItems items]
  | .object members, depth => by
    rw [compact, Layout.write, toList_bracketed String.toList_ofList String.toList_ofList depth,
      toList_compactMembers members]

/-- So are its items -/
theorem toList_compactItems : ∀ (items : List Json) (depth : Nat),
    (compactItems items).map String.toList = Layout.onOneLine.writeItems depth items
  | [], _ => rfl
  | j :: rest, depth => by
    rw [compactItems, List.map_cons, Layout.writeItems, toList_compact j, toList_compactItems rest]

/-- and its members. -/
theorem toList_compactMembers : ∀ (members : List (String × Json)) (depth : Nat),
    (compactMembers members).map String.toList = Layout.onOneLine.writeMembers depth members
  | [], _ => rfl
  | (key, j) :: rest, depth => by
    rw [compactMembers, List.map_cons, Layout.writeMembers, ← toList_compact j,
      toList_compactMembers rest, String.toList_append, String.toList_append, List.append_assoc]
    rfl

end

/-! ## Values -/

/-- The reader gives back the draft of a written value, before anything that may follow it and with
any fuel that exceeds its length. -/
structure Reads (part : List Char) (d : Draft) : Prop where
  starts : ∃ c cs, part = c :: cs ∧ isBlank c = false ∧ c ≠ ']'
  reads : ∀ {fuel : Nat} {rest : List Char}, Ends rest → part.length < fuel →
    readValue fuel (part ++ rest) = (d, some rest)

/-- How what stands between two brackets is read in a layout: the first part behind the opening
bracket, and every other part behind a comma. -/
structure Brackets (l : Layout) (α : Type) where
  opening : Char
  closing : Char
  read : Bool → Nat → List Char → Reading (List α × Ending)
  draft : List α → Ending → Draft
  Part : List Char → α → Prop
  starts : isBlank opening = false ∧ opening ≠ ']'
  closes : closing = ']' ∨ closing = '\x7d'
  part_pos : ∀ {part a}, Part part a → 0 < part.length
  readValue_opening : ∀ fuel text, readValue (fuel + 1) (opening :: text) =
    (draft (read true fuel text).1.1 (read true fuel text).1.2, (read true fuel text).2)
  read_part : ∀ {part a}, Part part a → ∀ (first : Bool) {fuel rest}, Ends rest →
    part.length < fuel → ∀ depth,
      read first (fuel + 1)
          ((if first then [] else [',']) ++ (l.gap depth ++ (part ++ rest))) =
        ((a :: (read false fuel rest).1.1, (read false fuel rest).1.2), (read false fuel rest).2)
  read_nothing : ∀ fuel rest, read true (fuel + 1) (closing :: rest) = (([], .closed), some rest)
  read_closing : ∀ fuel depth rest, read false (fuel + 1) (l.gap depth ++ closing :: rest) =
    (([], .closed), some rest)

namespace Brackets

variable {l : Layout} {α : Type} (b : Brackets l α)

/-- The parts behind the first come back, up to the closing bracket. -/
theorem read_following {parts : List (List Char)} {as : List α} (h : List.Forall₂ b.Part parts as)
    (depth : Nat) {fuel : Nat} (hfuel : (l.following depth b.closing parts).length < fuel)
    (rest : List Char) :
    b.read false fuel (l.following depth b.closing parts ++ rest) = ((as, .closed), some rest) := by
  -- Every part takes one unit of fuel, and the text gets shorter by at least the comma.
  induction h generalizing fuel with
  | nil =>
    obtain ⟨fuel, rfl⟩ : ∃ n, fuel = n + 1 := ⟨fuel - 1, by omega⟩
    rw [Layout.following, List.append_assoc]
    exact b.read_closing fuel depth rest
  | @cons part a parts as hpart _ ih =>
    obtain ⟨fuel, rfl⟩ : ∃ n, fuel = n + 1 := ⟨fuel - 1, by omega⟩
    simp only [Layout.following, List.length_cons, List.length_append] at hfuel
    have hread := b.read_part hpart false (l.ends_following depth b.closes parts rest)
      (show part.length < fuel by omega) (depth + 1)
    rw [ih (by omega)] at hread
    simpa only [Layout.following, List.cons_append, List.append_assoc, if_neg Bool.false_ne_true,
      List.nil_append] using hread

/-- What stands between brackets comes back where its parts do. -/
theorem reads_between {parts : List (List Char)} {as : List α} (h : List.Forall₂ b.Part parts as)
    (depth : Nat) : Reads (l.between depth b.opening b.closing parts) (b.draft as .closed) := by
  obtain ⟨hblank, hne⟩ := b.starts
  cases h with
  | nil =>
    refine ⟨⟨b.opening, [b.closing], rfl, hblank, hne⟩, fun {fuel rest} _ hfuel => ?_⟩
    obtain ⟨fuel, rfl⟩ : ∃ n, fuel = n + 2 := ⟨fuel - 2, by simp [Layout.between] at hfuel; omega⟩
    simp only [Layout.between, List.cons_append, List.nil_append, b.readValue_opening,
      b.read_nothing]
  | @cons part a parts as hpart hparts =>
    have hpos := b.part_pos hpart
    have hfollowing : 0 < (l.following depth b.closing parts).length := by
      cases parts <;> simp [Layout.following]
    refine ⟨⟨b.opening, _, rfl, hblank, hne⟩, fun {fuel rest} _ hfuel => ?_⟩
    simp only [Layout.between, List.length_cons, List.length_append] at hfuel
    obtain ⟨fuel, rfl⟩ : ∃ n, fuel = n + 2 := ⟨fuel - 2, by omega⟩
    have hread := b.read_part hpart true (l.ends_following depth b.closes parts rest)
      (show part.length < fuel by omega) (depth + 1)
    rw [b.read_following hparts depth (by omega), if_pos rfl, List.nil_append] at hread
    simp only [Layout.between, List.cons_append, List.append_assoc, b.readValue_opening, hread]

end Brackets

section

variable (l : Layout)

/-- One item of an array is read, in front of what follows it. -/
theorem readItems_part {part : List Char} {d : Draft} (h : Reads part d) (first : Bool) {fuel : Nat}
    {rest : List Char} (hrest : Ends rest) (hfuel : part.length < fuel) (depth : Nat) :
    readItems first (fuel + 1)
        ((if first then [] else [',']) ++ (l.gap depth ++ (part ++ rest))) =
      consItem d (readItems false fuel rest) := by
  obtain ⟨c, cs, hpart, hblank, hclosing⟩ := h.starts
  have hread := h.reads hrest hfuel
  have hskip : skipBlanks (l.gap depth ++ (part ++ rest)) = c :: (cs ++ rest) := by
    rw [skipBlanks_append (l.gap_blank depth), hpart, List.cons_append,
      skipBlanks_of_not_blank hblank]
  rw [hpart, List.cons_append] at hread
  cases first with
  | true =>
    rw [if_pos rfl, List.nil_append, readItems, hskip]
    simp [hclosing, hread]
  | false =>
    rw [if_neg Bool.false_ne_true, List.singleton_append, readItems, skipBlanks_of_not_blank rfl]
    simp [hskip, hclosing, hread]

/-- The items of an array. -/
def Brackets.items : Brackets l Draft where
  opening := '['
  closing := ']'
  read := readItems
  draft := .array
  Part := Reads
  starts := by decide
  closes := .inl rfl
  part_pos h := by
    obtain ⟨c, cs, rfl, -⟩ := h.starts
    exact Nat.succ_pos _
  readValue_opening fuel text := rfl
  read_part h first _ _ hrest hfuel depth := readItems_part l h first hrest hfuel depth
  read_nothing fuel rest := rfl
  read_closing fuel depth rest := by
    rw [readItems, skipBlanks_append (l.gap_blank depth), skipBlanks_of_not_blank rfl]
    rfl

/-- A member comes back whose value does: its key, and its value behind a colon. -/
def ReadsMember (part : List Char) (m : String × Draft) : Prop :=
  ∃ value, part = '"' :: (m.1.toList.flatMap escapeChar ++ '"' :: ':' :: (l.space ++ value)) ∧
    Reads value m.2

/-- Blanks in front of a value are passed over. -/
theorem readValue_append {blanks : List Char} (h : ∀ c ∈ blanks, isBlank c = true) (fuel : Nat)
    (text : List Char) : readValue fuel (blanks ++ text) = readValue fuel text := by
  cases fuel with
  | zero => rfl
  | succ fuel => rw [readValue, readValue, skipBlanks_append h]

/-- One member of an object is read, in front of what follows it. -/
theorem readMembers_part {part : List Char} {m : String × Draft} (h : ReadsMember l part m)
    (first : Bool) {fuel : Nat} {rest : List Char} (hrest : Ends rest) (hfuel : part.length < fuel)
    (depth : Nat) :
    readMembers first (fuel + 1)
        ((if first then [] else [',']) ++ (l.gap depth ++ (part ++ rest))) =
      consMember m.1 m.2 (readMembers false fuel rest) := by
  obtain ⟨key, d⟩ := m
  obtain ⟨value, rfl, hvalue⟩ := h
  dsimp only at hfuel ⊢
  have hread : readValue fuel (l.space ++ (value ++ rest)) = (d, some rest) := by
    simp only [List.length_cons, List.length_append] at hfuel
    rw [readValue_append l.space_blank, hvalue.reads hrest (by omega)]
  have hkey := readString_quoted key (':' :: (l.space ++ (value ++ rest)))
  have hcolon : skipBlanks (':' :: (l.space ++ (value ++ rest))) =
      ':' :: (l.space ++ (value ++ rest)) := skipBlanks_of_not_blank rfl _
  have htext : '"' :: (key.toList.flatMap escapeChar ++ '"' :: ':' :: (l.space ++ value)) ++ rest =
      '"' :: (key.toList.flatMap escapeChar ++ '"' :: ':' :: (l.space ++ (value ++ rest))) := by
    simp only [List.append_assoc, List.cons_append]
  rw [htext]
  have hskip := skipBlanks_append (l.gap_blank depth)
    ('"' :: (key.toList.flatMap escapeChar ++ '"' :: ':' :: (l.space ++ (value ++ rest))))
  rw [skipBlanks_of_not_blank rfl] at hskip
  cases first with
  | true =>
    rw [if_pos rfl, List.nil_append, readMembers, hskip]
    simp [hkey, hcolon, hread]
  | false =>
    rw [if_neg Bool.false_ne_true, List.singleton_append, readMembers, skipBlanks_of_not_blank rfl]
    simp [hskip, hkey, hcolon, hread]

/-- The members of an object. -/
def Brackets.members : Brackets l (String × Draft) where
  opening := '\x7b'
  closing := '\x7d'
  read := readMembers
  draft := .object
  Part := ReadsMember l
  starts := by decide
  closes := .inr rfl
  part_pos h := by
    obtain ⟨value, rfl, -⟩ := h
    exact Nat.succ_pos _
  readValue_opening fuel text := rfl
  read_part h first _ _ hrest hfuel depth := readMembers_part l h first hrest hfuel depth
  read_nothing fuel rest := rfl
  read_closing fuel depth rest := by
    rw [readMembers, skipBlanks_append (l.gap_blank depth), skipBlanks_of_not_blank rfl]
    rfl

end

/-! ## Whole values -/

mutual

/-- All numbers in the value are whole; integers have 64 bits, and decimals are in lowest terms. -/
def Whole : Json → Prop
  | .integer negative n => IsWhole negative n
  | .decimal _ d => d.IsWhole
  | .array items => WholeItems items
  | .object members => WholeMembers members
  | _ => True

/-- All items are whole. -/
def WholeItems : List Json → Prop
  | [] => True
  | j :: rest => j.Whole ∧ WholeItems rest

/-- The values of all members are whole. -/
def WholeMembers : List (String × Json) → Prop
  | [] => True
  | (_, j) :: rest => j.Whole ∧ WholeMembers rest

end

/-- Members are whole where each of their values is. -/
theorem wholeMembers_iff (members : List (String × Json)) :
    WholeMembers members ↔ ∀ m ∈ members, m.2.Whole := by
  induction members with
  | nil => simp [WholeMembers]
  | cons m rest ih => rw [WholeMembers, ih, List.forall_mem_cons]

/-- Items are whole that are written of values one by one, each as a whole one. -/
theorem wholeItems_map {β : Type} {write : β → Json} {values : List β}
    (h : ∀ b ∈ values, (write b).Whole) : WholeItems (values.map write) := by
  induction values with
  | nil => trivial
  | cons b rest ih =>
    obtain ⟨hb, hrest⟩ := List.forall_mem_cons.mp h
    exact ⟨hb, ih hrest⟩

/-- A value that may be missing is whole where a present one is. -/
theorem whole_optional {β : Type} {write : β → Json} {x : Option β}
    (h : ∀ b ∈ x, (write b).Whole) : (Json.optional write x).Whole := by
  cases x with
  | none => trivial
  | some b => exact h b rfl

/-- A word that stands for a value comes back. -/
theorem reads_word {text : String} {c : Char} {cs : List Char} {d : Draft}
    (htext : text.toList = c :: cs) (hblank : isBlank c = false) (hclosing : c ≠ ']')
    (h : ∀ fuel rest, readValue (fuel + 1) (c :: cs ++ rest) = (d, some rest)) :
    Reads text.toList d := by
  refine ⟨⟨c, cs, htext, hblank, hclosing⟩, fun {fuel rest} _ hfuel => ?_⟩
  obtain ⟨fuel, rfl⟩ : ∃ n, fuel = n + 1 := ⟨fuel - 1, by omega⟩
  rw [htext, h]

/-- A digit is not any other character, -/
theorem ne_of_isDigit {c d : Char} (hc : c.isDigit = true) (hd : d.isDigit = false) : c ≠ d := by
  rintro rfl
  rw [hc] at hd
  cases hd

/-- and no blank. -/
theorem isBlank_of_isDigit {c : Char} (h : c.isDigit = true) : isBlank c = false := by
  have hne (d : Char) (hd : d.isDigit = false) : c ≠ d := ne_of_isDigit h hd
  simp [isBlank, hne ' ' rfl, hne '\t' rfl, hne '\n' rfl, hne '\r' rfl]

/-- A value that begins with a digit is read as a number. -/
theorem readValue_of_isDigit {c : Char} (h : c.isDigit = true) (fuel : Nat) (text : List Char) :
    readValue (fuel + 1) (c :: text) = readNumber false (c :: text) := by
  have hne (d : Char) (hd : d.isDigit = false) : c ≠ d := ne_of_isDigit h hd
  rw [readValue, skipBlanks_of_not_blank (isBlank_of_isDigit h)]
  split
  · next heq => cases heq
  · next heq => exact absurd (List.cons.inj heq).1 (hne 'n' rfl)
  · next heq => exact absurd (List.cons.inj heq).1 (hne 't' rfl)
  · next heq => exact absurd (List.cons.inj heq).1 (hne 'f' rfl)
  · next heq => exact absurd (List.cons.inj heq).1 (hne '"' rfl)
  · next heq => exact absurd (List.cons.inj heq).1 (hne '-' rfl)
  · next heq => exact absurd (List.cons.inj heq).1 (hne '[' rfl)
  · next heq => exact absurd (List.cons.inj heq).1 (hne '\x7b' rfl)
  · next heq =>
    obtain ⟨rfl, rfl⟩ := List.cons.inj heq
    rw [if_pos h]

/-- A number comes back whose digits do, with or without a sign. -/
theorem reads_signed {negative : Bool} {number : String} {d : Draft}
    (hnumber : ∃ c cs, number.toList = c :: cs ∧ c.isDigit = true)
    (hread : ∀ {rest : List Char}, Ends rest →
      readNumber negative (number.toList ++ rest) = (d, some rest)) :
    Reads ((if negative then "-" else "") ++ number).toList d := by
  cases negative with
  | true =>
    have htext : ((if true then "-" else "") ++ number).toList = '-' :: number.toList := by simp
    refine ⟨⟨'-', _, htext, rfl, by decide⟩, fun {fuel rest} hrest hfuel => ?_⟩
    obtain ⟨fuel, rfl⟩ : ∃ n, fuel = n + 1 := ⟨fuel - 1, by omega⟩
    have hvalue : readValue (fuel + 1) ('-' :: (number.toList ++ rest)) =
        readNumber true (number.toList ++ rest) := rfl
    rw [htext, List.cons_append, hvalue, hread hrest]
  | false =>
    obtain ⟨c, cs, hdigits, hc⟩ := hnumber
    have htext : ((if false then "-" else "") ++ number).toList = number.toList := by simp
    refine ⟨⟨c, cs, htext.trans hdigits, isBlank_of_isDigit hc, ne_of_isDigit hc rfl⟩,
      fun {fuel rest} hrest hfuel => ?_⟩
    obtain ⟨fuel, rfl⟩ : ∃ n, fuel = n + 1 := ⟨fuel - 1, by omega⟩
    have hvalue := hread hrest
    rw [hdigits, List.cons_append] at hvalue
    rw [htext, hdigits, List.cons_append, readValue_of_isDigit hc, hvalue]

/-- Digits begin with a digit. -/
theorem exists_toDigits (n : Nat) : ∃ c cs, Nat.toDigits 10 n = c :: cs ∧ c.isDigit = true := by
  obtain ⟨c, cs, hdigits⟩ := List.exists_cons_of_ne_nil (@Nat.toDigits_ne_nil n 10)
  exact ⟨c, cs, hdigits, isDigit_of_mem_toDigits c (hdigits ▸ List.mem_cons_self)⟩

/-- An integer of 64 bits comes back. -/
theorem reads_integer {negative : Bool} {n : Nat} (h : IsWhole negative n) :
    Reads (writeScalar (.integer negative n)).toList (.integer negative n) := by
  refine reads_signed ?_ fun hrest => ?_
  · rw [String.toList_ofList]
    exact exists_toDigits n
  · rw [String.toList_ofList]
    exact readNumber_toDigits h hrest

/-- A whole decimal comes back. -/
theorem reads_decimal {negative : Bool} {d : Decimal} (h : d.IsWhole) :
    Reads (writeScalar (.decimal negative d)).toList (.decimal negative d) := by
  have hpositional : ∃ c cs, d.positional.toList = c :: cs ∧ c.isDigit = true := by
    obtain ⟨c, cs, hdigits, hc⟩ := exists_toDigits d.digits
    refine ⟨c, cs ++ (List.replicate d.scale.toNat '0' ++ ['.', '0']), ?_, hc⟩
    simp [Decimal.positional, h.2.1, hdigits]
  have hlow : -6 < d.point := by
    have hscale := h.2.1
    unfold Decimal.point
    omega
  have hwrite : writeScalar (.decimal negative d) =
      (if negative then "-" else "") ++ d.positional := by
    have hpositive : d.digits ≠ 0 := fun hzero => h.1 (by rw [hzero])
    have hform : (decide (-6 < d.point) && decide (d.point < 14)) = true := by
      simpa using And.intro hlow h.2.2
    simp only [writeScalar, writeDecimal, if_neg hpositive, hform, if_true]
  rw [hwrite]
  exact reads_signed hpositional (readNumber_positional h negative)

/-- A text comes back. -/
theorem reads_string (s : String) : Reads (quote s).toList (.string s) := by
  rw [quote, String.toList_ofList]
  refine ⟨⟨'"', _, rfl, rfl, by decide⟩, fun {fuel rest} _ hfuel => ?_⟩
  obtain ⟨fuel, rfl⟩ : ∃ n, fuel = n + 1 := ⟨fuel - 1, by omega⟩
  have hread : readValue (fuel + 1) ('"' :: (s.toList.flatMap escapeChar ++ '"' :: rest)) =
      readString (s.toList.flatMap escapeChar ++ '"' :: rest) := rfl
  simpa [readString_quoted] using hread

mutual

/-- A written value comes back, in whatever layout and at whatever depth. -/
theorem reads_write (l : Layout) : ∀ (j : Json), j.Whole → ∀ depth, Reads (l.write depth j) j.toDraft
  | .null, _, _ | .bool true, _, _ | .bool false, _, _ =>
    reads_word String.toList_ofList rfl (by decide) fun _ _ => rfl
  | .integer negative n, h, _ => reads_integer h
  | .decimal negative d, h, _ => reads_decimal h
  | .string s, _, _ => reads_string s
  | .array items, h, depth =>
    (Brackets.items l).reads_between (reads_writeItems l items h (depth + 1)) depth
  | .object members, h, depth =>
    (Brackets.members l).reads_between (reads_writeMembers l members h (depth + 1)) depth

/-- The items of a written array come back. -/
theorem reads_writeItems (l : Layout) : ∀ (items : List Json), WholeItems items → ∀ depth,
    List.Forall₂ Reads (l.writeItems depth items) (toDrafts items)
  | [], _, _ => .nil
  | j :: rest, h, depth => .cons (reads_write l j h.1 depth) (reads_writeItems l rest h.2 depth)

/-- The members of a written object come back. -/
theorem reads_writeMembers (l : Layout) : ∀ (members : List (String × Json)), WholeMembers members →
    ∀ depth, List.Forall₂ (ReadsMember l) (l.writeMembers depth members) (toDraftMembers members)
  | [], _, _ => .nil
  | (key, j) :: rest, h, depth => by
    refine .cons ⟨_, ?_, reads_write l j h.1 depth⟩ (reads_writeMembers l rest h.2 depth)
    simp [quote]

end

/-- A text that is a written value, with nothing but a line end behind it, is read as this value. -/
theorem readText_of_write {l : Layout} {j : Json} (h : j.Whole) {text : String} {rest : List Char}
    (htext : text.toList = l.write 0 j ++ rest) (hrest : rest = [] ∨ rest = ['\n']) :
    readText text = (j.toDraft, false) := by
  have hends : Ends rest := by
    rcases hrest with rfl | rfl <;> simp [Ends]
  have hlength : (l.write 0 j).length < text.toList.length + 1 := by
    rw [htext, List.length_append]
    omega
  have hread := (reads_write l j h 0).reads hends hlength
  rw [← htext] at hread
  rw [readText, hread]
  rcases hrest with rfl | rfl <;> rfl

/-- The reader gives back every value that has been printed over several lines, and nothing follows
it. -/
theorem readText_pretty {j : Json} (h : j.Whole) : readText j.pretty = (j.toDraft, false) :=
  readText_of_write h (by rw [pretty, toList_prettyAt, List.append_nil]) (.inl rfl)

end Json

/-- A map of texts has no number. -/
theorem Attributes.whole_toJson (a : Attributes) : (Attributes.toJson a).Whole := by
  refine (Json.wholeMembers_iff _).mpr fun m hm => ?_
  obtain ⟨e, -, rfl⟩ := List.mem_map.mp hm
  trivial

end TextAnalysis
