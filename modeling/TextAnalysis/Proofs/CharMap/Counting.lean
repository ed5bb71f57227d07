import TextAnalysis.Proofs.CharMap.Refusing

/-!
# Reading tables with 32 bits

Code points come from the table as any numbers of 32 bits, and that they are characters is found out
one by one, while a range is being listed. Here tables are read once more, with numbers that have no
more than 32 bits, operations that halt where a result does not fit, and loops that halt after a
given number of turns (`Narrow.ofTable`). Neither ever happens: the ends of a range have been
compared before they are subtracted, a sum does not pass the end of its range, and a loop meets a code
point that is no character before it has taken as many turns as there are code points. The gap of the
surrogates is needed for this, since a loop that begins at zero would come to all of them otherwise.

Main statement: `tables_are_read_in_32_bits`, that this way of reading gives what reading gives, for
every table and every entry.
-/

set_option autoImplicit false

namespace TextAnalysis.CharMap

open Text (trim)

/-- Why reading with limited means stops early. -/
inductive Halt where
  /-- The table is at fault. -/
  | fault (f : TableFault)
  /-- A number does not fit into 32 bits. -/
  | overflow
  /-- A loop has not ended with the turns that it may take. -/
  | overrun
  deriving DecidableEq, Repr

namespace Narrow

/-! ## Numbers of 32 bits -/

/-- A number as one of 32 bits. -/
def narrow (n : Nat) : Except Halt UInt32 :=
  if n < UInt32.size then .ok (.ofNat n) else .error .overflow

/-- A sum that has to fit. -/
def add (a b : UInt32) : Except Halt UInt32 :=
  if a.toNat + b.toNat < UInt32.size then .ok (a + b) else .error .overflow

/-- A difference that must not be below zero. -/
def sub (a b : UInt32) : Except Halt UInt32 :=
  if b ≤ a then .ok (a - b) else .error .overflow

/-- A number below the bound of the counters is held as it is. -/
theorem narrow_of_lt {n : Nat} (h : n < 4294967296) : narrow n = .ok (.ofNat n) := if_pos h

/-- It is read off the counter as it was, -/
theorem toNat_ofNat {n : Nat} (h : n < 4294967296) : (UInt32.ofNat n).toNat = n :=
  UInt32.toNat_ofNat_of_lt' h

/-- sums of counters are those of their numbers, -/
theorem add_ofNat {m n : Nat} (h : m + n < 4294967296) :
    add (.ofNat m) (.ofNat n) = .ok (.ofNat (m + n)) := by
  rw [add, toNat_ofNat (by omega), toNat_ofNat (by omega), if_pos h, UInt32.ofNat_add]

/-- differences too, -/
theorem sub_ofNat {m n : Nat} (hle : n ≤ m) (h : m < 4294967296) :
    sub (.ofNat m) (.ofNat n) = .ok (.ofNat (m - n)) := by
  have hwords : UInt32.ofNat n ≤ UInt32.ofNat m := by
    rwa [UInt32.le_iff_toNat_le, toNat_ofNat (by omega), toNat_ofNat h]
  rw [sub, if_pos hwords, UInt32.ofNat_sub hle]

/-- counters are in the order of their numbers, -/
theorem ofNat_lt_iff {m n : Nat} (hm : m < 4294967296) (hn : n < 4294967296) :
    UInt32.ofNat m < UInt32.ofNat n ↔ m < n := by
  rw [UInt32.lt_iff_toNat_lt, toNat_ofNat hm, toNat_ofNat hn]

/-- and equal where their numbers are. -/
theorem ofNat_inj {m n : Nat} (hm : m < 4294967296) (hn : n < 4294967296) :
    UInt32.ofNat m = UInt32.ofNat n ↔ m = n := by
  rw [← UInt32.toNat_inj, toNat_ofNat hm, toNat_ofNat hn]

/-! ## Loops -/

/-- Takes turns as long as the state asks for more, and halts where these are more than `limit`. -/
def repeatWhile {σ : Type} (more : σ → Bool) (turn : σ → Except Halt σ) : Nat → σ → Except Halt σ
  | 0, s => if more s then .error .overrun else .ok s
  | limit + 1, s => if more s then turn s >>= repeatWhile more turn limit else .ok s

/-- Counting up to a number, this one included. -/
structure Counter where
  next : UInt32
  last : UInt32
  ended : Bool := false

namespace Counter

/-- Is there a number that has not been counted yet? -/
def more (c : Counter) : Bool := !c.ended && c.next ≤ c.last

/-- Goes on behind the next number. Behind the last one there is none to go on to. -/
def advance (c : Counter) : Except Halt Counter :=
  if c.next < c.last then do
    let next ← add c.next 1
    return { c with next := next }
  else .ok { c with ended := true }

end Counter

variable {α : Type}

/-- Does something for every number that is still to be counted. -/
def forEach (body : UInt32 → α → Except Halt α) (limit : Nat) (c : Counter) (a : α) :
    Except Halt α :=
  let turn (s : Counter × α) : Except Halt (Counter × α) := do
    let c ← s.1.advance
    let a ← body s.1.next s.2
    return (c, a)
  (repeatWhile (fun s => s.1.more) turn limit (c, a)).map Prod.snd

/-! ## Reading -/

/-- Reads a character of a table, as its code point. -/
def readCode (entry item : List Char) : Except Halt UInt32 :=
  (CharMap.readCode entry item).mapError .fault >>= narrow

/-- The ends of a range, unless they are reversed. -/
def checkEnds (entry : List Char) (first last : UInt32) : Except Halt (UInt32 × UInt32) :=
  if last < first then .error (.fault (.reversedRange (String.ofList entry))) else .ok (first, last)

/-- Reads a character or a range, as the first and last code point. -/
def readRange (entry item : List Char) : Except Halt (UInt32 × UInt32) := do
  let (first, last) ←
    match splitAtPair? '.' '.' item with
    | some (first, last) => do
      let first ← readCode entry (trim first)
      let last ← readCode entry (trim last)
      pure (first, last)
    | none => do
      let code ← readCode entry item
      pure (code, code)
  checkEnds entry first last

/-- The character with a code point. -/
def charOfCode (entry : List Char) (code : UInt32) : Except Halt Char :=
  (CharMap.charOfCode entry code.toNat).mapError .fault

/-- Lists a character, mapped to itself. -/
def keepOne (entry : List Char) (code : UInt32) (table : Std.ExtTreeMap Char String) :
    Except Halt (Std.ExtTreeMap Char String) := do
  let c ← charOfCode entry code
  return table.insert c c.toString

/-- Lists the character at a place of a range, mapped to the one at this place of another. -/
def shiftOne (entry : List Char) (first image offset : UInt32)
    (table : Std.ExtTreeMap Char String) : Except Halt (Std.ExtTreeMap Char String) := do
  let code ← add first offset
  let c ← charOfCode entry code
  let code ← add image offset
  let d ← charOfCode entry code
  return table.insert c d.toString

/-- Lists a pair of characters, both mapped to the second, and goes on behind them. -/
def pairUp (entry : List Char) (s : UInt32 × Std.ExtTreeMap Char String) :
    Except Halt (UInt32 × Std.ExtTreeMap Char String) := do
  let code ← add s.1 1
  let d ← charOfCode entry code
  let c ← charOfCode entry s.1
  let next ← add s.1 2
  return (next, (s.2.insert c d.toString).insert d d.toString)

variable (entry : List Char) (table : Std.ExtTreeMap Char String)

/-- Lists a range whose characters are mapped to themselves, code point by code point. -/
def listSame (limit : Nat) (first last : UInt32) : Except Halt (Std.ExtTreeMap Char String) :=
  forEach (keepOne entry) limit ⟨first, last, false⟩ table

/-- Lists a range and what it is mapped to, place by place. -/
def listPlaces (limit : Nat) (first image length : UInt32) :
    Except Halt (Std.ExtTreeMap Char String) :=
  forEach (shiftOne entry first image) limit ⟨0, length, false⟩ table

/-- Lists a range that is mapped to another one, which has to be of its length. -/
def listOnto (limit : Nat) (first last image imageLast : UInt32) :
    Except Halt (Std.ExtTreeMap Char String) := do
  let length ← sub last first
  let imageLength ← sub imageLast image
  if length = imageLength then listPlaces entry table limit first image length
  else .error (.fault (.unequalRanges (String.ofList entry)))

/-- Lists a range in pairs. -/
def listPairs (limit : Nat) (first last : UInt32) : Except Halt (Std.ExtTreeMap Char String) :=
  (repeatWhile (fun s => s.1 < last) (pairUp entry) limit (first, table)).map Prod.snd

/-- Adds what an entry lists to a table, with no more than `limit` turns of a loop. -/
def readEntry (limit : Nat) (table : Std.ExtTreeMap Char String) (entry : List Char) :
    Except Halt (Std.ExtTreeMap Char String) :=
  match splitAtPair? '-' '>' entry with
  | some (source, target) => do
    let (first, last) ← readRange entry (trim source)
    let (image, imageLast) ← readRange entry (trim target)
    listOnto entry table limit first last image imageLast
  | none =>
    match beforeHalving? entry with
    | some range => do
      let (first, last) ← readRange entry (trim range)
      listPairs entry table limit first last
    | none => do
      let (first, last) ← readRange entry entry
      listSame entry table limit first last

/-- Reads a character table, with no more than `limit` turns of a loop for each of its entries. -/
def ofTable (limit : Nat) (table : String) : Except Halt CharMap := do
  let listed ← (tableEntries table.toList).foldlM (readEntry limit) ∅
  return { table := listed, unmapped := .split }

/-! ## How long a loop takes -/

/-- The turns from a code point on up to the first one that is no character, with this one. The first
of the surrogates stands for all of them. -/
def turnsFrom (code : Nat) : Nat :=
  if code ≤ 0xD800 then 0xD801 - code else if code < 0x110000 then 0x110001 - code else 1

/-- The loop has a turn left. -/
theorem turnsFrom_pos (code : Nat) : 0 < turnsFrom code := by
  unfold turnsFrom
  split_ifs <;> omega

/-- It has no more turns than there are code points. -/
theorem turnsFrom_le (code : Nat) : turnsFrom code ≤ 0x110000 := by
  unfold turnsFrom
  split_ifs <;> omega

/-- A valid code point lies below the end of Unicode. -/
theorem lt_of_isValidChar {code : Nat} (h : code.isValidChar) : code < 0x110000 := by
  have hvalid : code < 0xD800 ∨ 0xDFFF < code ∧ code < 0x110000 := h
  omega

/-- Each character takes one turn. -/
theorem turnsFrom_succ_lt {code : Nat} (h : code.isValidChar) :
    turnsFrom (code + 1) < turnsFrom code := by
  have hvalid : code < 0xD800 ∨ 0xDFFF < code ∧ code < 0x110000 := h
  unfold turnsFrom
  split_ifs <;> omega

section Loops

variable {σ : Type} {more : σ → Bool} {turn : σ → Except Halt σ} {limit : Nat} {s : σ}

/-- A loop that has ended stays as it is. -/
theorem repeatWhile_of_ended (h : more s = false) : repeatWhile more turn limit s = .ok s := by
  cases limit with
  | zero => rw [repeatWhile, h]; rfl
  | succ limit => rw [repeatWhile, h]; rfl

/-- A loop that has more to do takes a turn, as long as there is one. -/
theorem repeatWhile_of_more (h : more s = true) (hlimit : 0 < limit) :
    repeatWhile more turn limit s = turn s >>= repeatWhile more turn (limit - 1) := by
  obtain ⟨limit, rfl⟩ := Nat.exists_eq_add_one_of_ne_zero (Nat.ne_of_gt hlimit)
  rw [repeatWhile, if_pos h, Nat.add_sub_cancel]

end Loops

section Counters

variable {body : UInt32 → α → Except Halt α} {limit k last : Nat}

/-- In front of the last number, one pass of the loop goes on behind it. -/
theorem forEach_of_lt (hk : k < last) (hlast : last < 4294967296) (hlimit : 0 < limit) (a : α) :
    forEach body limit ⟨.ofNat k, .ofNat last, false⟩ a =
      body (.ofNat k) a >>= forEach body (limit - 1) ⟨.ofNat (k + 1), .ofNat last, false⟩ := by
  have hmore : Counter.more ⟨.ofNat k, .ofNat last, false⟩ = true := by
    simp [Counter.more, UInt32.le_iff_toNat_le, toNat_ofNat hlast, toNat_ofNat (n := k) (by omega)]
    omega
  have hadvance : Counter.advance ⟨.ofNat k, .ofNat last, false⟩ =
      .ok ⟨.ofNat (k + 1), .ofNat last, false⟩ := by
    rw [Counter.advance, if_pos ((ofNat_lt_iff (by omega) hlast).mpr hk)]
    dsimp only
    rw [show (1 : UInt32) = .ofNat 1 from rfl, add_ofNat (by omega)]
    rfl
  rw [forEach, repeatWhile_of_more (by exact hmore) hlimit]
  dsimp only
  rw [hadvance]
  cases body (.ofNat k) a with
  | error halt => rfl
  | ok b => rfl

/-- With the last number, the loop is done. -/
theorem forEach_last (hlimit : 0 < limit) (a : α) :
    forEach body limit ⟨.ofNat last, .ofNat last, false⟩ a = body (.ofNat last) a := by
  have hmore : Counter.more ⟨.ofNat last, .ofNat last, false⟩ = true := by
    simp [Counter.more]
  have hadvance : Counter.advance ⟨.ofNat last, .ofNat last, false⟩ =
      .ok ⟨.ofNat last, .ofNat last, true⟩ := by
    rw [Counter.advance, if_neg (UInt32.lt_irrefl _)]
  rw [forEach, repeatWhile_of_more (by exact hmore) hlimit]
  dsimp only
  rw [hadvance]
  cases body (.ofNat last) a with
  | error halt => rfl
  | ok b =>
    have hended : Counter.more ⟨.ofNat last, .ofNat last, true⟩ = false := rfl
    exact congrArg (Except.map Prod.snd) (repeatWhile_of_ended hended)

end Counters

/-! ## Listing in 32 bits -/

/-- Errors that are renamed at the end can be renamed on the way. -/
theorem mapError_bind {ε ε' β γ : Type} (f : ε → ε') (x : Except ε β) (g : β → Except ε γ) :
    (x >>= g).mapError f = x.mapError f >>= fun b => (g b).mapError f := by
  cases x <;> rfl

/-- A reading without limits finds faults only. -/
theorem mapError_fault_ne {β : Type} {x : Except TableFault β} {halt : Halt}
    (h : ∀ f, halt ≠ .fault f) : x.mapError Halt.fault ≠ .error halt := by
  cases x with
  | error f => exact fun heq => h f (Except.error.inj heq).symm
  | ok b => exact nofun

/-- A counter is taken for a character as its number is. -/
theorem charOfCode_ofNat {code : Nat} (h : code < 4294967296) :
    charOfCode entry (.ofNat code) = (CharMap.charOfCode entry code).mapError .fault := by
  rw [charOfCode, toNat_ofNat h]

/-- Only a valid code point is taken for a character. -/
theorem isValidChar_of_charOfCode {entry : List Char} {code : Nat} {c : Char}
    (h : CharMap.charOfCode entry code = .ok c) : code.isValidChar := by
  unfold CharMap.charOfCode at h
  split at h
  · assumption
  · cases h

/-- Lists one character. -/
def listOne (first image : Nat) : Except TableFault (Std.ExtTreeMap Char String) := do
  let c ← CharMap.charOfCode entry first
  let d ← CharMap.charOfCode entry image
  return table.insert c d.toString

/-- Lists one pair of characters. -/
def listPair (first : Nat) : Except TableFault (Std.ExtTreeMap Char String) := do
  let d ← CharMap.charOfCode entry (first + 1)
  let c ← CharMap.charOfCode entry first
  return (table.insert c d.toString).insert d d.toString

/-- A range with one more number lists its first and then the others. -/
theorem listRange_succ (first image count : Nat) :
    listRange entry table first image (count + 1) =
      listOne entry table first image >>= fun t =>
        listRange entry t (first + 1) (image + 1) count := by
  rw [listRange, listOne]
  cases CharMap.charOfCode entry first with
  | error fault => rfl
  | ok c =>
    cases CharMap.charOfCode entry image with
    | error fault => rfl
    | ok d => rfl

/-- So does a range in pairs. -/
theorem listPairs_succ (first count : Nat) :
    CharMap.listPairs entry table first (count + 1) =
      listPair entry table first >>= fun t => CharMap.listPairs entry t (first + 2) count := by
  rw [CharMap.listPairs, listPair]
  cases CharMap.charOfCode entry (first + 1) with
  | error fault => rfl
  | ok d =>
    cases CharMap.charOfCode entry first with
    | error fault => rfl
    | ok c => rfl

variable {entry table} {first image last length limit : Nat}

/-- A number that could be listed was a valid code point, -/
theorem isValidChar_of_listOne {t : Std.ExtTreeMap Char String}
    (h : listOne entry table first image = .ok t) : first.isValidChar := by
  obtain ⟨c, hc, -⟩ := exists_of_bind_eq_ok h
  exact isValidChar_of_charOfCode hc

/-- and so were the two of a pair. -/
theorem isValidChar_of_listPair {t : Std.ExtTreeMap Char String}
    (h : listPair entry table first = .ok t) : first.isValidChar ∧ (first + 1).isValidChar := by
  obtain ⟨d, hd, h⟩ := exists_of_bind_eq_ok h
  obtain ⟨c, hc, -⟩ := exists_of_bind_eq_ok h
  exact ⟨isValidChar_of_charOfCode hc, isValidChar_of_charOfCode hd⟩

/-- Counting that lists one character for each number lists a range. -/
theorem forEach_eq_listRange
    {body : UInt32 → Std.ExtTreeMap Char String → Except Halt (Std.ExtTreeMap Char String)}
    (hlast : last < 4294967296)
    (hbody : ∀ k ≤ last, ∀ t,
      body (.ofNat k) t = (listOne entry t (first + k) (image + k)).mapError Halt.fault)
    {k n : Nat} (hk : k + n = last) (hlimit : turnsFrom (first + k) ≤ limit) :
    forEach body limit ⟨.ofNat k, .ofNat last, false⟩ table =
      (listRange entry table (first + k) (image + k) (n + 1)).mapError .fault := by
  -- The turns that are left for the code points to come are what the limit is held against.
  induction n generalizing k limit table with
  | zero =>
    have hpos := turnsFrom_pos (first + k)
    obtain rfl : k = last := hk
    rw [forEach_last (by omega), hbody k (Nat.le_refl k), listRange_succ]
    cases listOne entry table (first + k) (image + k) with
    | error fault => rfl
    | ok t => rfl
  | succ n ih =>
    have hpos := turnsFrom_pos (first + k)
    rw [forEach_of_lt (by omega) hlast (by omega), hbody k (by omega), listRange_succ, mapError_bind]
    cases hone : listOne entry table (first + k) (image + k) with
    | error fault => rfl
    | ok t =>
      have hturn := turnsFrom_succ_lt (isValidChar_of_listOne hone)
      exact ih (by omega) (by rw [← Nat.add_assoc]; omega)

/-- With counters, a character is kept as it is with numbers, -/
theorem keepOne_ofNat {code : Nat} (h : code < 4294967296) :
    keepOne entry (.ofNat code) table = (listOne entry table code code).mapError .fault := by
  rw [keepOne, charOfCode_ofNat entry h, listOne]
  cases CharMap.charOfCode entry code with
  | error fault => rfl
  | ok c => rfl

/-- moved as it is with numbers, -/
theorem shiftOne_ofNat {k : Nat} (hfirst : first + k < 4294967296)
    (himage : image + k < 4294967296) :
    shiftOne entry (.ofNat first) (.ofNat image) (.ofNat k) table =
      (listOne entry table (first + k) (image + k)).mapError .fault := by
  rw [shiftOne, add_ofNat hfirst, add_ofNat himage, listOne]
  change (charOfCode entry _ >>= fun c => charOfCode entry _ >>= fun d => _) = _
  rw [charOfCode_ofNat entry hfirst, charOfCode_ofNat entry himage]
  cases CharMap.charOfCode entry (first + k) with
  | error fault => rfl
  | ok c =>
    cases CharMap.charOfCode entry (image + k) with
    | error fault => rfl
    | ok d => rfl

/-- and paired as it is with numbers. -/
theorem pairUp_ofNat {code : Nat} (h : code + 1 < 4294967296) :
    pairUp entry (.ofNat code, table) =
      (listPair entry table code).mapError .fault >>= fun t => .ok (.ofNat (code + 2), t) := by
  have hone : add (.ofNat code) 1 = .ok (.ofNat (code + 1)) := add_ofNat (n := 1) h
  rw [pairUp, hone, listPair]
  change (charOfCode entry _ >>= fun d => charOfCode entry _ >>= fun c => _) = _
  rw [charOfCode_ofNat entry h, charOfCode_ofNat entry (by omega)]
  cases hd : CharMap.charOfCode entry (code + 1) with
  | error fault => rfl
  | ok d =>
    cases CharMap.charOfCode entry code with
    | error fault => rfl
    | ok c =>
      -- A character stands far below the last number of 32 bits.
      have hvalid : code + 1 < 0x110000 := lt_of_isValidChar (isValidChar_of_charOfCode hd)
      have htwo : add (.ofNat code) 2 = .ok (.ofNat (code + 2)) := add_ofNat (n := 2) (by omega)
      change (add (.ofNat code) 2 >>= fun next => _) = _
      rw [htwo]
      rfl

/-- A range whose code points are counted themselves. -/
theorem listSame_ofNat (hle : first ≤ last) (hlast : last < 4294967296)
    (hlimit : 0x110000 ≤ limit) :
    listSame entry table limit (.ofNat first) (.ofNat last) =
      (listRange entry table first first (last - first + 1)).mapError .fault := by
  have hbody : ∀ k ≤ last, ∀ t, keepOne entry (.ofNat k) t =
      (listOne entry t (0 + k) (0 + k)).mapError Halt.fault := by
    intro k hk t
    rw [Nat.zero_add]
    exact keepOne_ofNat (by omega)
  have hturns := turnsFrom_le (0 + first)
  have hrange : listSame entry table limit (.ofNat first) (.ofNat last) =
      (listRange entry table (0 + first) (0 + first) (last - first + 1)).mapError .fault :=
    forEach_eq_listRange hlast hbody (Nat.add_sub_of_le hle) (Nat.le_trans hturns hlimit)
  rwa [Nat.zero_add] at hrange

/-- A range whose places are counted. -/
theorem listPlaces_ofNat (hfirst : first + length < 4294967296)
    (himage : image + length < 4294967296) (hlimit : 0x110000 ≤ limit) :
    listPlaces entry table limit (.ofNat first) (.ofNat image) (.ofNat length) =
      (listRange entry table first image (length + 1)).mapError .fault := by
  have hbody : ∀ k ≤ length, ∀ t, shiftOne entry (.ofNat first) (.ofNat image) (.ofNat k) t =
      (listOne entry t (first + k) (image + k)).mapError Halt.fault :=
    fun k hk t => shiftOne_ofNat (by omega) (by omega)
  have hturns := turnsFrom_le (first + 0)
  exact forEach_eq_listRange (by omega) hbody (Nat.zero_add length) (Nat.le_trans hturns hlimit)

/-- A range that is mapped to another one: neither of them is reversed, so that both have a length,
and the sums stay within the two ranges. -/
theorem listOnto_ofNat {imageLast : Nat} (hle : first ≤ last) (hlast : last < 4294967296)
    (himage : image ≤ imageLast) (himageLast : imageLast < 4294967296) (hlimit : 0x110000 ≤ limit) :
    listOnto entry table limit (.ofNat first) (.ofNat last) (.ofNat image) (.ofNat imageLast) =
      (if last - first = imageLast - image then
          listRange entry table first image (last - first + 1)
        else .error (.unequalRanges (String.ofList entry))).mapError .fault := by
  have hlengths : UInt32.ofNat (last - first) = UInt32.ofNat (imageLast - image) ↔
      last - first = imageLast - image := ofNat_inj (by omega) (by omega)
  rw [listOnto, sub_ofNat hle hlast, sub_ofNat himage himageLast]
  change (if UInt32.ofNat (last - first) = UInt32.ofNat (imageLast - image) then _ else _) = _
  simp only [hlengths]
  split
  · next hequal => exact listPlaces_ofNat (by omega) (by omega) hlimit
  · rfl

/-- A range whose code points are counted in steps of two. -/
theorem listPairs_ofNat (hfirst : first < 4294967296) (hlast : last < 4294967296)
    (hlimit : turnsFrom first ≤ limit) :
    listPairs entry table limit (.ofNat first) (.ofNat last) =
      (CharMap.listPairs entry table first ((last - first + 1) / 2)).mapError .fault := by
  induction hcount : (last - first + 1) / 2 generalizing first limit table with
  | zero =>
    have hended : decide (UInt32.ofNat first < UInt32.ofNat last) = false :=
      decide_eq_false fun h => by
        have hlt := (ofNat_lt_iff hfirst hlast).mp h
        omega
    exact congrArg (Except.map Prod.snd) (repeatWhile_of_ended hended)
  | succ count ih =>
    have hpos := turnsFrom_pos first
    have hmore : decide (UInt32.ofNat first < UInt32.ofNat last) = true :=
      decide_eq_true ((ofNat_lt_iff hfirst hlast).mpr (by omega))
    rw [listPairs, repeatWhile_of_more (by exact hmore) (by omega), pairUp_ofNat (by omega),
      listPairs_succ]
    cases hpair : listPair entry table first with
    | error fault => rfl
    | ok t =>
      obtain ⟨hc, hd⟩ := isValidChar_of_listPair hpair
      have hturn := turnsFrom_succ_lt hc
      have hturn' : turnsFrom (first + 2) < turnsFrom (first + 1) := turnsFrom_succ_lt hd
      have hvalid := lt_of_isValidChar hd
      exact ih (by omega) (by omega) (by omega)

/-! ## Reading in 32 bits -/

/-- Codes that cannot be read fail in the same way. -/
theorem readCode_of_eq_error {entry item : List Char} {f : TableFault}
    (h : CharMap.readCode entry item = .error f) : readCode entry item = .error (.fault f) := by
  rw [readCode, h]
  rfl

/-- What is read as a code point fits into 32 bits. -/
theorem readCode_of_eq_ok {entry item : List Char} {code : Nat}
    (h : CharMap.readCode entry item = .ok code) : readCode entry item = .ok (.ofNat code) := by
  rw [readCode, h]
  exact narrow_of_lt (lt_of_readCode h)

/-- The ends of a range are compared as they would be without a bound. -/
theorem checkEnds_ofNat (entry : List Char) (hfirst : first < 4294967296)
    (hlast : last < 4294967296) :
    checkEnds entry (.ofNat first) (.ofNat last) =
      ((if last < first then .error (.reversedRange (String.ofList entry)) else .ok (first, last) :
          Except TableFault (Nat × Nat)).map fun r =>
        (UInt32.ofNat r.1, UInt32.ofNat r.2)).mapError .fault := by
  rw [checkEnds]
  simp only [ofNat_lt_iff hlast hfirst]
  split <;> rfl

/-- Ranges are read alike. -/
theorem readRange_eq (entry item : List Char) :
    readRange entry item =
      ((CharMap.readRange entry item).map fun r =>
        (UInt32.ofNat r.1, UInt32.ofNat r.2)).mapError .fault := by
  rw [readRange, CharMap.readRange]
  cases splitAtPair? '.' '.' item with
  | some parts =>
    dsimp only
    cases hfirst : CharMap.readCode entry (trim parts.1) with
    | error f =>
      rw [readCode_of_eq_error hfirst]
      rfl
    | ok first =>
      rw [readCode_of_eq_ok hfirst]
      cases hlast : CharMap.readCode entry (trim parts.2) with
      | error f =>
        rw [readCode_of_eq_error hlast]
        rfl
      | ok last =>
        rw [readCode_of_eq_ok hlast]
        exact checkEnds_ofNat entry (lt_of_readCode hfirst) (lt_of_readCode hlast)
  | none =>
    dsimp only
    cases hcode : CharMap.readCode entry item with
    | error f =>
      rw [readCode_of_eq_error hcode]
      rfl
    | ok code =>
      rw [readCode_of_eq_ok hcode]
      exact checkEnds_ofNat entry (lt_of_readCode hcode) (lt_of_readCode hcode)

/-- An entry is read with limited means as it is without them. -/
theorem readEntry_eq (hlimit : 0x110000 ≤ limit) :
    readEntry limit table entry = (CharMap.readEntry table entry).mapError .fault := by
  rw [readEntry, CharMap.readEntry]
  cases splitAtPair? '-' '>' entry with
  | some parts =>
    dsimp only
    rw [readRange_eq, readRange_eq]
    cases hsource : CharMap.readRange entry (trim parts.1) with
    | error f => rfl
    | ok source =>
      obtain ⟨first, last⟩ := source
      cases htarget : CharMap.readRange entry (trim parts.2) with
      | error f => rfl
      | ok target =>
        obtain ⟨image, imageLast⟩ := target
        exact listOnto_ofNat (le_of_readRange hsource) (lt_of_readRange hsource)
          (le_of_readRange htarget) (lt_of_readRange htarget) hlimit
  | none =>
    cases beforeHalving? entry with
    | some range =>
      dsimp only
      rw [readRange_eq]
      cases hrange : CharMap.readRange entry (trim range) with
      | error f => rfl
      | ok r =>
        obtain ⟨first, last⟩ := r
        have hlast := lt_of_readRange hrange
        have hle := le_of_readRange hrange
        exact listPairs_ofNat (by omega) hlast (Nat.le_trans (turnsFrom_le first) hlimit)
    | none =>
      dsimp only
      rw [readRange_eq]
      cases hrange : CharMap.readRange entry entry with
      | error f => rfl
      | ok r =>
        obtain ⟨first, last⟩ := r
        exact listSame_ofNat (le_of_readRange hrange) (lt_of_readRange hrange) hlimit

/-- Entries one after the other are read alike. -/
theorem foldlM_readEntry (hlimit : 0x110000 ≤ limit) (entries : List (List Char)) :
    entries.foldlM (readEntry limit) table =
      (entries.foldlM CharMap.readEntry table).mapError .fault := by
  induction entries generalizing table with
  | nil => rfl
  | cons e rest ih =>
    rw [List.foldlM_cons, List.foldlM_cons, mapError_bind, readEntry_eq hlimit]
    cases CharMap.readEntry table e with
    | error f => rfl
    | ok t => exact ih

end Narrow

/-- **Tables are read with 32 bits, and no loop runs away.** Reading with numbers of 32 bits, and with
no more turns of a loop for each entry than there are code points, gives what reading gives, for every
table and for every entry over whatever has been listed: the map or the fault that is found first. So
no number leaves its range, and no loop is cut short. -/
theorem tables_are_read_in_32_bits (text : String) :
    Narrow.ofTable 0x110000 text = (ofTable text).mapError .fault ∧
      ∀ (table : Std.ExtTreeMap Char String) (entry : List Char),
        let read := Narrow.readEntry 0x110000 table entry
        read = (readEntry table entry).mapError .fault ∧
          read ≠ .error .overflow ∧ read ≠ .error .overrun := by
  refine ⟨?_, fun table entry => ?_⟩
  · rw [Narrow.ofTable, ofTable, Narrow.foldlM_readEntry (Nat.le_refl _)]
    cases (tableEntries text.toList).foldlM readEntry ∅ with
    | error f => rfl
    | ok listed => rfl
  · intro read
    have hread : read = (readEntry table entry).mapError .fault :=
      Narrow.readEntry_eq (Nat.le_refl _)
    refine ⟨hread, ?_, ?_⟩
    · rw [hread]
      exact Narrow.mapError_fault_ne (by simp)
    · rw [hread]
      exact Narrow.mapError_fault_ne (by simp)

/-- The limits are felt: three characters are not listed in two turns. -/
example : Narrow.readEntry 2 ∅ "a..c".toList = .error .overrun := by rfl

/-- At the very end of the numbers there is no character. -/
example : Narrow.ofTable 0x110000 "U+FFFFFFFE..U+FFFFFFFF/2" =
    .error (.fault (.invalidCharacter 0xFFFFFFFF "U+FFFFFFFE..U+FFFFFFFF/2")) := by rfl

end TextAnalysis.CharMap
