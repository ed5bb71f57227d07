/-!
# Rounding to binary precision

Positive quotients rounded to the nearest number of the form `m * 2 ^ q` where `m` has at most a
given count of bits and `q` is at least a given exponent. A tie goes to the even `m`.
-/

set_option autoImplicit false

namespace TextAnalysis.Rounding

/-- The natural number nearest to `num / den`, the even one of two. -/
def nearest (num den : Nat) : Nat :=
  let quotient := num / den
  let remainder := num % den
  if 2 * remainder < den then quotient
  else if den < 2 * remainder then quotient + 1
  else if quotient % 2 = 0 then quotient
  else quotient + 1

/-- The quotient `num / den` divided by `2 ^ q`. -/
def scaled (num den : Nat) (q : Int) : Nat × Nat :=
  if 0 ≤ q then (num, den * Nat.pow 2 q.toNat) else (num * Nat.pow 2 (-q).toNat, den)

/-- The exponent at which `num / den` has exactly `precision` bits before the point, but no less
than `lowest`. -/
def exponent (precision : Nat) (lowest : Int) (num den : Nat) : Int :=
  let estimate : Int := (Nat.log2 num : Int) - (Nat.log2 den : Int) - (precision : Int)
  let (n, d) := scaled num den estimate
  max lowest (if d * Nat.pow 2 precision ≤ n then estimate + 1 else estimate)

/-- The number `m * 2 ^ q` nearest to `num / den`, as the pair of `m` and `q`. -/
def toBinary (precision : Nat) (lowest : Int) (num den : Nat) : Nat × Int :=
  let q := exponent precision lowest num den
  let (n, d) := scaled num den q
  (nearest n d, q)

/-- The number `m * 2 ^ q` as a quotient. -/
def ofBinary (m : Nat) (q : Int) : Nat × Nat :=
  if 0 ≤ q then (m * Nat.pow 2 q.toNat, 1) else (m, Nat.pow 2 (-q).toNat)

end TextAnalysis.Rounding
