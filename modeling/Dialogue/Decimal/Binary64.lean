/-!
# Doubles as exact numbers

A double is a sign and an integer scaled by a power of two, an infinity, or no number.  Everything
said about a double in decimal digits starts from this exact value.
-/

namespace Dialogue.Decimal

/-- What the bits of a double say: `finite s m q` is `m · 2 ^ q`, negated if `s` holds. -/
inductive Binary64 where
  | finite (negative : Bool) (mantissa : Nat) (exponent : Int)
  | infinite (negative : Bool)
  | notANumber
  deriving DecidableEq, Repr

namespace Binary64

/-- The leading bit of a mantissa, which is not written down. -/
def leadingBit : Nat := 0x10000000000000

def ofBits (bits : Nat) : Binary64 :=
  let negative := bits.testBit 63
  let exponent : Nat := bits / leadingBit % 2048
  let fraction := bits % leadingBit
  if exponent = 2047 then if fraction = 0 then infinite negative else notANumber
  else if exponent = 0 then finite negative fraction (-1074)
  else finite negative (leadingBit + fraction) ((exponent : Int) - 1075)

def ofFloat (x : Float) : Binary64 :=
  ofBits x.toBits.toNat

end Binary64

def sign (negative : Bool) : String :=
  if negative then "-" else ""

def write (digits : Nat → Int → String) : Binary64 → String
  | .finite negative mantissa exponent => sign negative ++ digits mantissa exponent
  | .infinite negative => sign negative ++ "inf"
  | .notANumber => "NaN"

def ratio (mantissa : Nat) (exponent : Int) : Nat × Nat :=
  (mantissa <<< exponent.toNat, 1 <<< (-exponent).toNat)

def tenTo (n : Nat) : Nat :=
  Nat.pow 10 n

def padLeft (width n : Nat) : String :=
  let digits := toString n
  String.ofList (List.replicate (width - digits.length) '0') ++ digits

def point (places n : Nat) : String :=
  if places = 0 then toString n
  else toString (n / tenTo places) ++ "." ++ padLeft places (n % tenTo places)

end Dialogue.Decimal
