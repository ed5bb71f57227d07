import TextAnalysis.Number.Decimal

/-!
# Numbers of single precision

Floating-point numbers of 32 bits, kept as their bits, so that two of them are equal exactly when
they are the same datum. They are read from decimals and written as the shortest decimals that read
back; nothing is computed with them.
-/

set_option autoImplicit false

namespace TextAnalysis

/-- A floating-point number of single precision. -/
structure Binary32 where
  bits : UInt32
  deriving DecidableEq, Repr

namespace Binary32

/-- Where the decimal point and the exponent stand in a written number: numbers whose count of
digits before the point lies strictly between the bounds are written positionally. -/
structure Layout where
  above : Int
  below : Int

/-- The number one. -/
def one : Binary32 := ⟨0x3F800000⟩

/-- Is the sign bit set? -/
def isNegative (x : Binary32) : Bool := 0x80000000 ≤ x.bits

/-- The eight bits of the exponent. -/
def exponentBits (x : Binary32) : Nat := x.bits.toNat / Nat.pow 2 23 % Nat.pow 2 8

/-- The 23 bits of the fraction. -/
def fractionBits (x : Binary32) : Nat := x.bits.toNat % Nat.pow 2 23

/-- Neither a finite number nor an infinity. -/
def isNaN (x : Binary32) : Bool := x.exponentBits = 255 && x.fractionBits ≠ 0

/-- One of the two infinities. -/
def isInfinite (x : Binary32) : Bool := x.exponentBits = 255 && x.fractionBits = 0

/-- One of the two zeros. -/
def isZero (x : Binary32) : Bool := x.exponentBits = 0 && x.fractionBits = 0

/-- Numeric equality: the zeros are equal, and no datum that is not a number equals anything. -/
def numEq (x y : Binary32) : Bool := !x.isNaN && !y.isNaN && (x = y || (x.isZero && y.isZero))

/-- The magnitude of a finite number as `m * 2 ^ q`. -/
def magnitude (x : Binary32) : Nat × Int :=
  if x.exponentBits = 0 then (x.fractionBits, -149)
  else (x.fractionBits + Nat.pow 2 23, (x.exponentBits : Int) - 150)

/-- The number with a sign and a magnitude `m * 2 ^ q`, where `m` has at most 24 bits; infinity
where the magnitude is out of range. -/
def ofMagnitude (negative : Bool) (m : Nat) (q : Int) : Binary32 :=
  let sign := if negative then Nat.pow 2 31 else 0
  let magnitude :=
    if m < Nat.pow 2 23 then m
    else (q + 150).toNat * Nat.pow 2 23 + (m - Nat.pow 2 23)
  ⟨UInt32.ofNat (sign + min magnitude (255 * Nat.pow 2 23))⟩

/-- The number nearest to the decimal `digits * 10 ^ scale`, rounded first to double and then to
single precision. -/
def ofDecimal (negative : Bool) (d : Decimal) : Binary32 :=
  if d.digits = 0 then ofMagnitude negative 0 0
  else
    let (num, den) := Decimal.scaled d.digits 1 (-d.scale)
    let (m, q) := Rounding.toBinary 53 (-1074) num den
    if m = 0 then ofMagnitude negative 0 0
    else
      let (num, den) := Rounding.ofBinary m q
      let (m, q) := Rounding.toBinary 24 (-149) num den
      ofMagnitude negative m q

/-- The shortest decimal that reads back as the number, which is finite and not zero. -/
def shortest (x : Binary32) : Decimal :=
  let (m, q) := x.magnitude
  Decimal.shortest m q (x.fractionBits = 0 && 1 < x.exponentBits)

/-- The written form of a finite number. -/
def writeFinite (l : Layout) (x : Binary32) : String :=
  let sign := if x.isNegative then "-" else ""
  if x.isZero then sign ++ "0.0"
  else
    let d := x.shortest
    sign ++ (if l.above < d.point && d.point < l.below then d.positional else d.scientific)

end Binary32

end TextAnalysis
