/-!
# Bytes as text

Decoding of UTF-8 byte sequences. A sequence that is not well formed has a first fault: the number
of bytes before it, and how many bytes belong to it, or that the input ends inside a character.

Main statement of this module's design: `decode` answers either the characters of the whole input
or that first fault, never a part of the text.
-/

set_option autoImplicit false

namespace TextAnalysis.Text

/-- The first ill-formed place of a byte sequence. `width` counts the bytes of the ill-formed
sequence, and is absent when the input ends inside a character. -/
structure Utf8Fault where
  /-- The number of well-formed bytes before the fault. -/
  valid : Nat
  /-- The number of bytes that cannot start or continue a character. -/
  width : Option Nat
  deriving DecidableEq, Repr

/-- The sentence that reports a fault. -/
def Utf8Fault.message (f : Utf8Fault) : String :=
  match f.width with
  | some w => s!"invalid utf-8 sequence of {w} bytes from index {f.valid}"
  | none => s!"incomplete utf-8 byte sequence from index {f.valid}"

/-- Is the byte of the form that continues a character? -/
def isContinuation (b : UInt8) : Bool := 0x80 ≤ b && b ≤ 0xBF

/-- May `second` follow the leading byte `lead` of a character of three bytes? Overlong forms and
surrogates are excluded. -/
def isSecondOfThree (lead second : UInt8) : Bool :=
  if lead = 0xE0 then 0xA0 ≤ second && second ≤ 0xBF
  else if lead = 0xED then 0x80 ≤ second && second ≤ 0x9F
  else isContinuation second

/-- May `second` follow the leading byte `lead` of a character of four bytes? Overlong forms and
values above the last code point are excluded. -/
def isSecondOfFour (lead second : UInt8) : Bool :=
  if lead = 0xF0 then 0x90 ≤ second && second ≤ 0xBF
  else if lead = 0xF4 then 0x80 ≤ second && second ≤ 0x8F
  else isContinuation second

/-- The six payload bits of a continuation byte. -/
def payload (b : UInt8) : Nat := b.toNat % 64

/-- The characters of `bytes`, which start `offset` bytes into the input. -/
def decodeFrom (offset : Nat) : List UInt8 → Except Utf8Fault (List Char)
  | [] => .ok []
  | a :: rest =>
    if a < 0x80 then (decodeFrom (offset + 1) rest).map (Char.ofNat a.toNat :: ·)
    else if 0xC2 ≤ a && a ≤ 0xDF then
      match rest with
      | [] => .error ⟨offset, none⟩
      | b :: rest =>
        if isContinuation b then
          (decodeFrom (offset + 2) rest).map (Char.ofNat (a.toNat % 32 * 64 + payload b) :: ·)
        else .error ⟨offset, some 1⟩
    else if 0xE0 ≤ a && a ≤ 0xEF then
      match rest with
      | [] => .error ⟨offset, none⟩
      | [b] => .error ⟨offset, if isSecondOfThree a b then none else some 1⟩
      | b :: c :: rest =>
        if !isSecondOfThree a b then .error ⟨offset, some 1⟩
        else if !isContinuation c then .error ⟨offset, some 2⟩
        else
          (decodeFrom (offset + 3) rest).map
            (Char.ofNat (a.toNat % 16 * 4096 + payload b * 64 + payload c) :: ·)
    else if 0xF0 ≤ a && a ≤ 0xF4 then
      match rest with
      | [] => .error ⟨offset, none⟩
      | [b] => .error ⟨offset, if isSecondOfFour a b then none else some 1⟩
      | [b, c] =>
        .error ⟨offset,
          if !isSecondOfFour a b then some 1 else if isContinuation c then none else some 2⟩
      | b :: c :: d :: rest =>
        if !isSecondOfFour a b then .error ⟨offset, some 1⟩
        else if !isContinuation c then .error ⟨offset, some 2⟩
        else if !isContinuation d then .error ⟨offset, some 3⟩
        else
          (decodeFrom (offset + 4) rest).map
            (Char.ofNat (a.toNat % 8 * 262144 + payload b * 4096 + payload c * 64 + payload d) :: ·)
    else .error ⟨offset, some 1⟩

/-- The text that a byte sequence encodes, or its first fault. -/
def decode (bytes : List UInt8) : Except Utf8Fault String :=
  (decodeFrom 0 bytes).map String.ofList

/-- The number of bytes that a list of characters takes in UTF-8. -/
def byteLength : List Char → Nat
  | [] => 0
  | c :: cs => c.utf8Size + byteLength cs

end TextAnalysis.Text
