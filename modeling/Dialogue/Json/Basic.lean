import Dialogue.Json.Literal
import Dialogue.Json.Number
/-!
# JSON values

The tree that a JSON text describes.  Members of an object keep their order and may repeat, string
literals and numbers are not yet asked for a value: a reader that skips a part of the tree accepts
what one that uses it refuses.
-/

namespace Dialogue

inductive Json where
  | null
  | bool (b : Bool)
  | number (n : Json.Number)
  | string (s : Json.Literal)
  | array (items : List Json)
  | object (members : List (Json.Literal × Json))

namespace Json

def Number.fits : Number → Bool
  | .tooLarge => false
  | _ => true

mutual
/-- Whether every part of a tree has a value, with at most `depth` arrays and objects inside one
another. -/
def usable (depth : Nat) : Json → Bool
  | .null => true
  | .bool _ => true
  | .number n => n.fits
  | .string s => s.text?.isSome
  | .array items => decide (0 < depth) && usableItems (depth - 1) items
  | .object members => decide (0 < depth) && usableMembers (depth - 1) members

def usableItems (depth : Nat) : List Json → Bool
  | [] => true
  | item :: items => usable depth item && usableItems depth items

def usableMembers (depth : Nat) : List (Literal × Json) → Bool
  | [] => true
  | (key, value) :: members =>
    key.text?.isSome && usable depth value && usableMembers depth members
end

/-! ## Plain values -/

def ofString (s : String) : Json :=
  .string (.ofString s)

def ofNat (n : Nat) : Json :=
  .number (.integer n)

/-- A double; one that is not finite has no number and is written as null. -/
def ofFloat (x : Float) : Json :=
  if x.isFinite then .number (.real x) else .null

def ofMembers (members : List (String × Json)) : Json :=
  .object (members.map fun m => (.ofString m.1, m.2))

/-- A value that may be absent, written as null. -/
def ofOption {α : Type} (encode : α → Json) : Option α → Json
  | none => .null
  | some a => encode a

def string? : Json → Option String
  | .string s => s.text?
  | _ => none

def natBelow? (bound : Nat) : Json → Option Nat
  | .number (.integer n) => if 0 ≤ n ∧ n.toNat < bound then some n.toNat else none
  | _ => none

def word? (j : Json) : Option Nat :=
  j.natBelow? UInt64.size

def count? (j : Json) : Option UInt32 :=
  (j.natBelow? UInt32.size).map UInt32.ofNat

def float? : Json → Option Float
  | .number (.integer n) => some (Float.ofInt n)
  | .number (.real x) => some x
  | _ => none

def list? {α : Type} (decode : Json → Option α) : Json → Option (List α)
  | .array items => items.mapM decode
  | _ => none

end Json

end Dialogue
