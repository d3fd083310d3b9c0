import Dialogue.Decimal.Binary64
/-!
# A fixed number of places

A double rounded to so many decimal places.  Its exact value is rounded, and a half goes to the
even neighbour.
-/

namespace Dialogue.Decimal

/-- The quotient `num / den` rounded to the nearest integer, a half to the even one. -/
def roundDiv (num den : Nat) : Nat :=
  let low := num / den
  let twice := 2 * (num % den)
  if den < twice ∨ (twice = den ∧ low % 2 = 1) then low + 1 else low

/-- The text of `x` with `places` decimal places.  The sign of zero and of what rounds to zero is
kept. -/
def fixed (places : Nat) (x : Float) : String :=
  write (fun mantissa exponent =>
    let (num, den) := ratio mantissa exponent
    point places (roundDiv (num * tenTo places) den)) (.ofFloat x)

end Dialogue.Decimal
