/-!
# Numbers

A numeral of JSON is an integer if it is written as one and fits a 64-bit word; any other is a
double.  The double comes from the leading digits that fit a word, scaled by a power of ten, and a
numeral beyond the largest double has no value.
-/

namespace Dialogue.Json

/-- A numeral as written: its sign, digits before and after the point, and exponent.  A numeral
without a point has no digits after it. -/
structure Numeral where
  negative : Bool
  whole : List Nat
  fraction : List Nat
  exponent : Option Int
  deriving DecidableEq, Repr

inductive Number where
  | integer (n : Int)
  | real (x : Float)
  | tooLarge

namespace Numeral

/-- Reads digits on top of `n` while the result fits a word; with the number of digits left. -/
def takeWhole (n : Nat) : List Nat → Nat × Nat
  | [] => (n, 0)
  | d :: ds => if n * 10 + d < UInt64.size then takeWhole (n * 10 + d) ds else (n, ds.length + 1)

def takeFraction (n : Nat) : List Nat → Nat × Nat
  | [] => (n, 0)
  | d :: ds =>
    if n * 10 + d < UInt64.size then
      let (n, read) := takeFraction (n * 10 + d) ds
      (n, read + 1)
    else (n, 0)

def powerOfTen (n : Nat) : Float :=
  OfScientific.ofScientific 1 false n

/-- The double `x · 10 ^ -n`, by divisors that a double can hold.  Three of them exhaust any
double. -/
def scaleDown (x : Float) (n : Nat) : Float :=
  if n ≤ 308 then x / powerOfTen n
  else if n ≤ 616 then x / powerOfTen 308 / powerOfTen (n - 308)
  else if n ≤ 924 then x / powerOfTen 308 / powerOfTen 308 / powerOfTen (n - 616)
  else 0

def scale (x : Float) (e : Int) : Option Float :=
  if e < 0 then some (scaleDown x (-e).toNat)
  else if e ≤ 308 then
    let scaled := x * powerOfTen e.toNat
    if scaled.isInf then none else some scaled
  else if x == 0 then some x
  else none

def real (n : Numeral) : Number :=
  let (whole, dropped) := takeWhole 0 n.whole
  let (digits, read) := takeFraction whole n.fraction
  match scale (Float.ofNat digits) ((dropped : Int) - read + n.exponent.getD 0) with
  | some x => .real (if n.negative then -x else x)
  | none => .tooLarge

def ofDigits (digits : List Nat) : Nat :=
  digits.foldl (fun n d => n * 10 + d) 0

def value (n : Numeral) : Number :=
  let magnitude := ofDigits n.whole
  if !n.fraction.isEmpty || n.exponent.isSome then n.real
  else if n.negative then
    if 0 < magnitude ∧ 2 * magnitude ≤ UInt64.size then .integer (-magnitude) else n.real
  else if magnitude < UInt64.size then .integer magnitude
  else n.real

end Numeral

end Dialogue.Json
