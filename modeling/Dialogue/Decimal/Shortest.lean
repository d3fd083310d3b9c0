import Dialogue.Decimal.Binary64
/-!
# The shortest decimal that reads back

The decimal with the fewest digits among those nearer to a double than to any other, and of these
the nearest to it, written without an exponent.
-/

namespace Dialogue.Decimal

/-- A number and the ends of the interval that rounds to it, in a common unit, which is the
fraction `unit.1 / unit.2`.  The ends belong to it if `closed` holds. -/
structure Neighbourhood where
  low : Nat
  value : Nat
  high : Nat
  closed : Bool
  unit : Nat × Nat

/-- The reals that round to `m · 2 ^ q`.  Below a power of two the next double is only half as far
away, except where the exponent cannot fall. -/
def Neighbourhood.of (mantissa : Nat) (exponent : Int) : Neighbourhood where
  low :=
    if mantissa = Binary64.leadingBit ∧ exponent ≠ -1074 then 4 * mantissa - 1
    else 4 * mantissa - 2
  value := 4 * mantissa
  high := 4 * mantissa + 2
  closed := mantissa % 2 = 0
  unit := ratio 1 (exponent - 2)

def Neighbourhood.holds (b : Neighbourhood) (num den : Nat) : Bool :=
  if b.closed then b.low * den ≤ num && num ≤ b.high * den
  else b.low * den < num && num < b.high * den

/-- The multiple of `10 ^ place` in the neighbourhood that is nearest to its value, divided by
`10 ^ place`.  Of two as near, the upper one. -/
def Neighbourhood.multiple? (b : Neighbourhood) (place : Int) : Option Nat :=
  let num := tenTo place.toNat * b.unit.2
  let den := tenTo (-place).toNat * b.unit.1
  let below := b.value * den / num
  let above := below + 1
  let nearer := decide (2 * b.value * den < (below + above) * num)
  match b.holds (below * num) den, b.holds (above * num) den with
  | true, true => some (if nearer then below else above)
  | true, false => some below
  | false, true => some above
  | false, false => none

/-- The places to try: no double reaches `10 ^ 309`, and every one is a multiple of
`10 ^ -1074`. -/
def places : List Int :=
  (List.range 1384).map fun (i : Nat) => (309 : Int) - i

def shortestDigits (mantissa : Nat) (exponent : Int) : Nat × Int :=
  let b := Neighbourhood.of mantissa exponent
  (places.findSome? fun place => (b.multiple? place).map (·, place)).getD (0, 0)

def shortest (x : Float) : String :=
  write (fun mantissa exponent =>
    if mantissa = 0 then "0"
    else
      let (digits, place) := shortestDigits mantissa exponent
      point (-place).toNat (digits * tenTo place.toNat)) (.ofFloat x)

end Dialogue.Decimal
