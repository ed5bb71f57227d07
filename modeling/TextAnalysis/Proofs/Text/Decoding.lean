import TextAnalysis.Text.Utf8

/-!
# Which bytes are text

A character takes one to four bytes (`Spells`). Decoding reads these forms and no others, and they are
the forms in which characters are encoded, so decoding accepts a byte sequence exactly where some
characters are encoded by it, and gives these characters.

Main statements: `decode_eq_ok_iff` and `exists_decode_eq_ok_iff`, that decoding fails exactly on the
bytes that are no well-formed UTF-8.
-/

set_option autoImplicit false

namespace TextAnalysis.Text

open String (utf8EncodeChar)

/-- The bytes spell the character. -/
inductive Spells : List UInt8 → Char → Prop where
  | one {a : UInt8} (ha : a.toNat < 128) : Spells [a] (Char.ofNat a.toNat)
  | two {a b : UInt8} (ha : 194 ≤ a.toNat ∧ a.toNat ≤ 223) (hb : isContinuation b = true) :
      Spells [a, b] (Char.ofNat (a.toNat % 32 * 64 + payload b))
  | three {a b c : UInt8} (ha : 224 ≤ a.toNat ∧ a.toNat ≤ 239) (hb : isSecondOfThree a b = true)
      (hc : isContinuation c = true) :
      Spells [a, b, c] (Char.ofNat (a.toNat % 16 * 4096 + payload b * 64 + payload c))
  | four {a b c d : UInt8} (ha : 240 ≤ a.toNat ∧ a.toNat ≤ 244) (hb : isSecondOfFour a b = true)
      (hc : isContinuation c = true) (hd : isContinuation d = true) :
      Spells [a, b, c, d]
        (Char.ofNat (a.toNat % 8 * 262144 + payload b * 4096 + payload c * 64 + payload d))

/-! ## Ranges of bytes -/

/-- Continuation bytes are those from 128 to 191. -/
theorem isContinuation_iff (b : UInt8) :
    isContinuation b = true ↔ 128 ≤ b.toNat ∧ b.toNat ≤ 191 := by
  simp [isContinuation, UInt8.le_iff_toNat_le]

/-- The second of three bytes is a continuation byte that makes the sequence neither too short nor a
surrogate. -/
theorem isSecondOfThree_iff (a b : UInt8) :
    isSecondOfThree a b = true ↔
      128 ≤ b.toNat ∧ b.toNat ≤ 191 ∧ (a.toNat = 224 → 160 ≤ b.toNat) ∧
        (a.toNat = 237 → b.toNat ≤ 159) := by
  have hE0 : a = 0xE0 ↔ a.toNat = 224 := UInt8.toNat_inj.symm
  have hED : a = 0xED ↔ a.toNat = 237 := UInt8.toNat_inj.symm
  rw [isSecondOfThree]
  by_cases h : a.toNat = 224
  · simp [UInt8.le_iff_toNat_le, hE0, h]
    omega
  · by_cases h' : a.toNat = 237
    · simp [UInt8.le_iff_toNat_le, hE0, hED, h']
      omega
    · simp [isContinuation_iff, hE0, hED, h, h']

/-- The second of four bytes is a continuation byte that makes the sequence neither too short nor
too high. -/
theorem isSecondOfFour_iff (a b : UInt8) :
    isSecondOfFour a b = true ↔
      128 ≤ b.toNat ∧ b.toNat ≤ 191 ∧ (a.toNat = 240 → 144 ≤ b.toNat) ∧
        (a.toNat = 244 → b.toNat ≤ 143) := by
  have hF0 : a = 0xF0 ↔ a.toNat = 240 := UInt8.toNat_inj.symm
  have hF4 : a = 0xF4 ↔ a.toNat = 244 := UInt8.toNat_inj.symm
  rw [isSecondOfFour]
  by_cases h : a.toNat = 240
  · simp [UInt8.le_iff_toNat_le, hF0, h]
    omega
  · by_cases h' : a.toNat = 244
    · simp [UInt8.le_iff_toNat_le, hF0, hF4, h']
      omega
    · simp [isContinuation_iff, hF0, hF4, h, h']

/-! ## Encoding -/

/-- A code point that is no surrogate is that of its character. -/
theorem val_ofNat {n : Nat} (h : n < 0xD800 ∨ 0xDFFF < n ∧ n < 0x110000) :
    (Char.ofNat n).val.toNat = n := by
  have hvalid : n.isValidChar := h
  rw [Char.ofNat, dif_pos hvalid]
  rfl

/-- A byte is known by its value, up to a multiple of 256. -/
theorem ofNat_eq_iff (n : Nat) (b : UInt8) : UInt8.ofNat n = b ↔ n % 256 = b.toNat := by
  rw [← UInt8.toNat_inj, UInt8.toNat_ofNat']

/-- A character is encoded by the bytes that spell it. -/
theorem Spells.encode {bytes : List UInt8} {c : Char} (h : Spells bytes c) :
    utf8EncodeChar c = bytes := by
  cases h with
  | @one a ha =>
    rw [utf8EncodeChar, val_ofNat (by omega), if_pos (by omega), List.singleton_inj, ofNat_eq_iff]
    omega
  | @two a b ha hb =>
    rw [isContinuation_iff] at hb
    rw [utf8EncodeChar, val_ofNat (by unfold payload; omega)]
    unfold payload
    rw [if_neg (by omega), if_pos (by omega)]
    simp only [List.cons.injEq, ofNat_eq_iff, and_true]
    omega
  | @three a b c ha hb hc =>
    rw [isSecondOfThree_iff] at hb
    rw [isContinuation_iff] at hc
    rw [utf8EncodeChar, val_ofNat (by unfold payload; omega)]
    unfold payload
    rw [if_neg (by omega), if_neg (by omega), if_pos (by omega)]
    simp only [List.cons.injEq, ofNat_eq_iff, and_true]
    omega
  | @four a b c d ha hb hc hd =>
    rw [isSecondOfFour_iff] at hb
    rw [isContinuation_iff] at hc hd
    rw [utf8EncodeChar, val_ofNat (by unfold payload; omega)]
    unfold payload
    rw [if_neg (by omega), if_neg (by omega), if_neg (by omega)]
    simp only [List.cons.injEq, ofNat_eq_iff, and_true]
    omega

/-- Every character is spelled by its encoding. -/
theorem spells_encode (c : Char) : Spells (utf8EncodeChar c) c := by
  have hvalid : c.val.toNat < 0xD800 ∨ 0xDFFF < c.val.toNat ∧ c.val.toNat < 0x110000 := c.valid
  have hc : Char.ofNat c.val.toNat = c := c.ofNat_toNat
  have hbyte {n : Nat} (h : n < 256) : (UInt8.ofNat n).toNat = n := UInt8.toNat_ofNat_of_lt' h
  rw [utf8EncodeChar]
  generalize c.val.toNat = v at hvalid hc
  subst hc
  by_cases h1 : v ≤ 127
  · rw [if_pos h1]
    have h := Spells.one (a := UInt8.ofNat v) (by rw [hbyte (by omega)]; omega)
    rwa [hbyte (by omega)] at h
  rw [if_neg h1]
  by_cases h2 : v ≤ 2047
  · rw [if_pos h2]
    have h := Spells.two (a := UInt8.ofNat (v / 64 % 32 + 192)) (b := UInt8.ofNat (v % 64 + 128))
      (by rw [hbyte (by omega)]; omega) (by rw [isContinuation_iff, hbyte (by omega)]; omega)
    rw [payload, hbyte (by omega), hbyte (by omega)] at h
    rwa [show (v / 64 % 32 + 192) % 32 * 64 + (v % 64 + 128) % 64 = v by omega] at h
  rw [if_neg h2]
  by_cases h3 : v ≤ 65535
  · rw [if_pos h3]
    have h := Spells.three (a := UInt8.ofNat (v / 4096 % 16 + 224))
      (b := UInt8.ofNat (v / 64 % 64 + 128)) (c := UInt8.ofNat (v % 64 + 128))
      (by rw [hbyte (by omega)]; omega)
      (by rw [isSecondOfThree_iff, hbyte (by omega), hbyte (by omega)]; omega)
      (by rw [isContinuation_iff, hbyte (by omega)]; omega)
    rw [payload, payload, hbyte (by omega), hbyte (by omega), hbyte (by omega)] at h
    rwa [show (v / 4096 % 16 + 224) % 16 * 4096 + (v / 64 % 64 + 128) % 64 * 64 +
      (v % 64 + 128) % 64 = v by omega] at h
  · rw [if_neg h3]
    have h := Spells.four (a := UInt8.ofNat (v / 262144 % 8 + 240))
      (b := UInt8.ofNat (v / 4096 % 64 + 128)) (c := UInt8.ofNat (v / 64 % 64 + 128))
      (d := UInt8.ofNat (v % 64 + 128))
      (by rw [hbyte (by omega)]; omega)
      (by rw [isSecondOfFour_iff, hbyte (by omega), hbyte (by omega)]; omega)
      (by rw [isContinuation_iff, hbyte (by omega)]; omega)
      (by rw [isContinuation_iff, hbyte (by omega)]; omega)
    rw [payload, payload, payload, hbyte (by omega), hbyte (by omega), hbyte (by omega),
      hbyte (by omega)] at h
    rwa [show (v / 262144 % 8 + 240) % 8 * 262144 + (v / 4096 % 64 + 128) % 64 * 4096 +
      (v / 64 % 64 + 128) % 64 * 64 + (v % 64 + 128) % 64 = v by omega] at h

/-! ## Decoding -/

/-- Decoding reads the bytes that spell a character as that character. -/
theorem Spells.decodeFrom {bytes : List UInt8} {c : Char} (h : Spells bytes c) (offset : Nat)
    (rest : List UInt8) :
    decodeFrom offset (bytes ++ rest) =
      (decodeFrom (offset + bytes.length) rest).map (c :: ·) := by
  rw [Text.decodeFrom.eq_def offset]
  cases h with
  | @one a ha =>
    have hone : a < 0x80 := UInt8.lt_iff_toNat_lt.mpr ha
    simp [hone]
  | @two a b ha hb =>
    have hone : ¬a < 0x80 := by simp [UInt8.lt_iff_toNat_lt]; omega
    have htwo : 0xC2 ≤ a ∧ a ≤ 0xDF := by simp [UInt8.le_iff_toNat_le]; omega
    simp [hone, htwo, hb]
  | @three a b c ha hb hc =>
    have hone : ¬a < 0x80 := by simp [UInt8.lt_iff_toNat_lt]; omega
    have htwo : ¬(0xC2 ≤ a ∧ a ≤ 0xDF) := by simp [UInt8.le_iff_toNat_le]; omega
    have hthree : 0xE0 ≤ a ∧ a ≤ 0xEF := by simp [UInt8.le_iff_toNat_le]; omega
    simp [hone, htwo, hthree, hb, hc]
  | @four a b c d ha hb hc hd =>
    have hone : ¬a < 0x80 := by simp [UInt8.lt_iff_toNat_lt]; omega
    have htwo : ¬(0xC2 ≤ a ∧ a ≤ 0xDF) := by simp [UInt8.le_iff_toNat_le]; omega
    have hthree : ¬(0xE0 ≤ a ∧ a ≤ 0xEF) := by simp [UInt8.le_iff_toNat_le]; omega
    have hfour : 0xF0 ≤ a ∧ a ≤ 0xF4 := by simp [UInt8.le_iff_toNat_le]; omega
    simp [hone, htwo, hthree, hfour, hb, hc, hd]

/-- An encoding is decoded into the characters that it encodes, -/
theorem decodeFrom_encode (cs : List Char) (offset : Nat) :
    decodeFrom offset (cs.flatMap utf8EncodeChar) = .ok cs := by
  induction cs generalizing offset with
  | nil => rw [List.flatMap_nil, Text.decodeFrom]
  | cons c cs ih =>
    rw [List.flatMap_cons, (spells_encode c).decodeFrom, ih]
    rfl

/-- What is read behind a character that has been spelled. -/
theorem Spells.encode_cons {read rest : List UInt8} {c : Char} {cs : List Char}
    {r : Except Utf8Fault (List Char)} (hread : Spells read c)
    (hrest : ∀ tail, r = .ok tail → tail.flatMap utf8EncodeChar = rest)
    (h : r.map (c :: ·) = .ok cs) : cs.flatMap utf8EncodeChar = read ++ rest := by
  cases r with
  | error fault => cases h
  | ok tail =>
    obtain rfl := Except.ok.inj h
    rw [List.flatMap_cons, hread.encode, hrest tail rfl]

/-- and what is decoded is the encoding of the characters that it is decoded into. -/
theorem encode_of_decodeFrom {offset : Nat} {bytes : List UInt8} {cs : List Char}
    (h : decodeFrom offset bytes = .ok cs) : cs.flatMap utf8EncodeChar = bytes := by
  -- In the cases that are not named, decoding has failed.
  fun_induction Text.decodeFrom offset bytes generalizing cs with
  | case1 =>
    obtain rfl := Except.ok.inj h
    rfl
  | case2 offset a rest ha ih =>
    exact (Spells.one (UInt8.lt_iff_toNat_lt.mp ha)).encode_cons (fun _ => ih) h
  | case4 offset a h1 h2 b rest hb ih =>
    simp [UInt8.le_iff_toNat_le] at h2
    exact (Spells.two h2 hb).encode_cons (fun _ => ih) h
  | case10 offset a h1 h2 h3 b c rest hb hc ih =>
    simp [UInt8.le_iff_toNat_le] at h3 hb hc
    exact (Spells.three h3 hb hc).encode_cons (fun _ => ih) h
  | case17 offset a h1 h2 h3 h4 b c d rest hb hc hd ih =>
    simp [UInt8.le_iff_toNat_le] at h4 hb hc hd
    exact (Spells.four h4 hb hc hd).encode_cons (fun _ => ih) h
  | _ => cases h

/-! ## Texts -/

/-- Byte arrays are the same if their bytes are. -/
theorem toByteArray_inj {a b : List UInt8} : a.toByteArray = b.toByteArray ↔ a = b := by
  refine ⟨fun h => ?_, fun h => by rw [h]⟩
  have hdata := congrArg (fun bytes : ByteArray => bytes.data.toList) h
  simpa only [List.toList_data_toByteArray] using hdata

/-- Decoding accepts exactly the bytes of texts, and gives the text. -/
theorem decode_eq_ok_iff (bytes : List UInt8) (s : String) :
    decode bytes = .ok s ↔ bytes.toByteArray = s.toByteArray := by
  have hencoding : s.toByteArray = (s.toList.flatMap utf8EncodeChar).toByteArray := by
    rw [← List.utf8Encode, ← String.toByteArray_ofList, String.ofList_toList]
  rw [hencoding, toByteArray_inj, decode]
  constructor
  · intro h
    cases hread : decodeFrom 0 bytes with
    | error fault => rw [hread] at h; cases h
    | ok cs =>
      rw [hread] at h
      obtain rfl := Except.ok.inj h
      rw [String.toList_ofList, encode_of_decodeFrom hread]
  · rintro rfl
    rw [decodeFrom_encode]
    exact congrArg Except.ok String.ofList_toList

/-- Decoding fails exactly on the bytes that are no well-formed UTF-8. -/
theorem exists_decode_eq_ok_iff (bytes : List UInt8) :
    (∃ s, decode bytes = .ok s) ↔ bytes.toByteArray.IsValidUTF8 := by
  simp only [decode_eq_ok_iff]
  constructor
  · rintro ⟨s, hs⟩
    rw [hs]
    exact s.isValidUTF8
  · rintro h
    exact ⟨.ofByteArray _ h, rfl⟩

end TextAnalysis.Text
