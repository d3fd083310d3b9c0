/-!
# String literals

A string literal of JSON is kept as it is written, piece by piece.  Whether it spells a text is a
second question: a `\u` escape may name half of a surrogate pair.
-/

namespace Dialogue.Json

/-- What a literal is made of: a character that stands for itself, one written as a backslash and a
letter, and four hexadecimal digits after `\u`. -/
inductive Piece where
  | plain (c : Char)
  | escaped (c : Char)
  | unit (code : Nat)
  deriving DecidableEq, Repr

abbrev Literal := List Piece

def unescape? (c : Char) : Option Char :=
  if c = '"' then some '"'
  else if c = '\\' then some '\\'
  else if c = '/' then some '/'
  else if c = 'b' then some (Char.ofNat 0x08)
  else if c = 'f' then some (Char.ofNat 0x0c)
  else if c = 'n' then some '\n'
  else if c = 'r' then some '\r'
  else if c = 't' then some '\t'
  else none

def needsLetter (c : Char) : Bool :=
  c == '"' || c == '\\' || c.toNat == 0x08 || c.toNat == 0x0c || c == '\n' || c == '\r' || c == '\t'

def isHighSurrogate (code : Nat) : Bool :=
  decide (0xd800 ≤ code) && decide (code < 0xdc00)

def isLowSurrogate (code : Nat) : Bool :=
  decide (0xdc00 ≤ code) && decide (code < 0xe000)

namespace Literal

/-- The characters that the pieces spell.  A high surrogate needs a low one right after it, and a
low one stands nowhere else. -/
def chars? : List Piece → Option (List Char)
  | [] => some []
  | .plain c :: rest => (chars? rest).map (c :: ·)
  | .escaped c :: rest => (chars? rest).map (c :: ·)
  | .unit high :: rest =>
    if isHighSurrogate high then
      match rest with
      | .unit low :: rest =>
        if isLowSurrogate low then
          (chars? rest).map
            (Char.ofNat (0x10000 + (high - 0xd800) * 0x400 + (low - 0xdc00)) :: ·)
        else none
      | _ => none
    else if isLowSurrogate high then none
    else (chars? rest).map (Char.ofNat high :: ·)

def text? (l : Literal) : Option String :=
  (chars? l).map String.ofList

/-- How a character is written: control characters never stand for themselves. -/
def piece (c : Char) : Piece :=
  if needsLetter c then .escaped c
  else if c.toNat < 0x20 then .unit c.toNat
  else .plain c

def ofString (s : String) : Literal :=
  s.toList.map piece

end Literal

end Dialogue.Json
