/-!
# Counts that stop at a ceiling

Positions and offsets are 64-bit counts. Where a sum would pass the greatest such count, the count
stays there: it never wraps around.
-/

set_option autoImplicit false

namespace TextAnalysis.Saturating

/-- The greatest position or offset. -/
def ceiling : Nat := 18446744073709551615

/-- The sum of two counts, held at the ceiling. -/
def add (a b : Nat) : Nat := min (a + b) ceiling

/-- No sum passes the ceiling. -/
theorem add_le_ceiling (a b : Nat) : add a b ≤ ceiling := Nat.min_le_right _ _

/-- Counting on in two steps is counting on in one. -/
theorem add_add (a b c : Nat) : add (add a b) c = add a (b + c) := by
  simp only [add]
  omega

/-- Nothing is added to a count that is no higher than the ceiling. -/
theorem add_zero (a : Nat) (h : a ≤ ceiling) : add a 0 = a := by
  simp only [add]
  omega

end TextAnalysis.Saturating
