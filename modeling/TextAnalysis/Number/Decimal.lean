import TextAnalysis.Number.Rounding

/-!
# Shortest decimals

The decimal with the fewest digits that lies in the interval of the numbers rounding to a given
binary number, and its written forms. `shortest` tries one digit, two digits and so on, and takes
at each step the neighbours of the number on that decimal grid; of two that lie in the interval the
nearer one is taken.
-/

set_option autoImplicit false

namespace TextAnalysis

/-- The number `digits * 10 ^ scale`. -/
structure Decimal where
  digits : Nat
  scale : Int
  deriving DecidableEq, Repr

namespace Decimal

/-- The exponent of the power of ten at or below `num / den`, sought from `guess` downwards. -/
def magnitude (num den : Nat) : (guess : Nat) → Int
  | 0 => 0
  | guess + 1 => if den * Nat.pow 10 guess ≤ num then guess else magnitude num den guess

/-- The least power of ten that brings `num / den` to one at least, sought from `shift` upwards. -/
def lift (num den : Nat) : (fuel : Nat) → (shift : Nat) → Nat
  | 0, shift => shift
  | fuel + 1, shift =>
    if den ≤ num * Nat.pow 10 shift then shift else lift num den fuel (shift + 1)

/-- The exponent of the power of ten at or below the positive number `num / den`. -/
def exponent (num den : Nat) : Int :=
  if den ≤ num then magnitude num den (Nat.log2 num + 1)
  else -(lift num den (Nat.log2 den + 1) 0 : Int)

/-- The quotient `num / den` divided by `10 ^ scale`. -/
def scaled (num den : Nat) (scale : Int) : Nat × Nat :=
  if 0 ≤ scale then (num, den * Nat.pow 10 scale.toNat)
  else (num * Nat.pow 10 (-scale).toNat, den)

/-- The interval of numbers that round to a binary number, with ends over a common denominator. -/
structure Interval where
  low : Nat
  value : Nat
  high : Nat
  den : Nat
  closed : Bool

/-- The interval of `m * 2 ^ q`; `edge` tells that the neighbour below is at half the distance. -/
def Interval.ofBinary (m : Nat) (q : Int) (edge : Bool) : Interval :=
  let (num, den) := Rounding.ofBinary 1 q
  ⟨(4 * m - if edge then 1 else 2) * num, 4 * m * num, (4 * m + 2) * num, 4 * den, m % 2 = 0⟩

/-- Does `d * 10 ^ scale` lie in the interval? -/
def Interval.holds (i : Interval) (d : Nat) (scale : Int) : Bool :=
  let (low, den) := scaled i.low i.den scale
  let (high, _) := scaled i.high i.den scale
  if i.closed then low ≤ d * den && d * den ≤ high else low < d * den && d * den < high

/-- The decimal with the fewest digits in the interval, tried with `count` digits and more. -/
def shortestFrom (i : Interval) (top : Int) : (fuel : Nat) → (count : Nat) → Decimal
  | 0, count => ⟨i.value / i.den, 1 - count⟩
  | fuel + 1, count =>
    let scale := top - (count : Int) + 1
    let (num, den) := scaled i.value i.den scale
    let below := num / den
    let isBelow := i.holds below scale
    let isAbove := i.holds (below + 1) scale
    if isBelow && (!isAbove || 2 * (num % den) ≤ den) then ⟨below, scale⟩
    else if isAbove then ⟨below + 1, scale⟩
    else shortestFrom i top fuel (count + 1)

/-- Takes trailing zeros off the digits. -/
def trimmed (d : Decimal) : (fuel : Nat) → Decimal
  | 0 => d
  | fuel + 1 =>
    if d.digits ≠ 0 && d.digits % 10 = 0 then trimmed ⟨d.digits / 10, d.scale + 1⟩ fuel else d

/-- The shortest decimal that rounds to `m * 2 ^ q`, where `m` is positive. -/
def shortest (m : Nat) (q : Int) (edge : Bool) : Decimal :=
  let i := Interval.ofBinary m q edge
  trimmed (shortestFrom i (exponent i.value i.den) 20 1) 20

/-- The count of digits before the decimal point, which is not positive for numbers below one
tenth. -/
def point (d : Decimal) : Int := (Nat.toDigits 10 d.digits).length + d.scale

/-- The positional form, with at least one digit after the point. -/
def positional (d : Decimal) : String :=
  let digits := Nat.toDigits 10 d.digits
  let point := d.point
  if 0 ≤ d.scale then
    String.ofList (digits ++ List.replicate d.scale.toNat '0') ++ ".0"
  else if 0 < point then
    String.ofList (digits.take point.toNat ++ '.' :: digits.drop point.toNat)
  else "0." ++ String.ofList (List.replicate (-point).toNat '0' ++ digits)

/-- The form with an exponent: one digit before the point, which is left out where no digit
follows. -/
def scientific (d : Decimal) : String :=
  let power := s!"e{d.point - 1}"
  match Nat.toDigits 10 d.digits with
  | [] => "0" ++ power
  | [first] => String.ofList [first] ++ power
  | first :: rest => String.ofList (first :: '.' :: rest) ++ power

end Decimal

end TextAnalysis
