import Dialogue.Json.Basic
/-!
# Reading JSON

A text is cut into tokens and the tokens are read into a tree.  The grammar is the strict one: one
value, nothing after it but blanks, no comments and no trailing commas.
-/

namespace Dialogue.Json

inductive Token where
  | openArray
  | closeArray
  | openObject
  | closeObject
  | comma
  | colon
  | null
  | bool (b : Bool)
  | number (n : Numeral)
  | string (s : Literal)
  deriving Repr

/-! ## Tokens -/

def isSpace (c : Char) : Bool :=
  c == ' ' || c == '\t' || c == '\n' || c == '\r'

def hexDigit? (c : Char) : Option Nat :=
  if '0' ≤ c ∧ c ≤ '9' then some (c.toNat - '0'.toNat)
  else if 'a' ≤ c ∧ c ≤ 'f' then some (c.toNat - 'a'.toNat + 10)
  else if 'A' ≤ c ∧ c ≤ 'F' then some (c.toNat - 'A'.toNat + 10)
  else none

def hexUnit? (a b c d : Char) : Option Nat := do
  let a ← hexDigit? a
  let b ← hexDigit? b
  let c ← hexDigit? c
  let d ← hexDigit? d
  pure (((a * 16 + b) * 16 + c) * 16 + d)

def literal? : List Char → Option (Literal × List Char)
  | [] => none
  | '"' :: rest => some ([], rest)
  | '\\' :: 'u' :: a :: b :: c :: d :: rest => do
    let code ← hexUnit? a b c d
    let (pieces, rest) ← literal? rest
    pure (.unit code :: pieces, rest)
  | '\\' :: c :: rest => do
    let c ← unescape? c
    let (pieces, rest) ← literal? rest
    pure (.escaped c :: pieces, rest)
  | c :: rest =>
    if c = '\\' ∨ c.toNat < 0x20 then none
    else do
      let (pieces, rest) ← literal? rest
      pure (.plain c :: pieces, rest)

def digits (cs : List Char) : List Nat × List Char :=
  ((cs.takeWhile Char.isDigit).map fun c => c.toNat - '0'.toNat, cs.dropWhile Char.isDigit)

def fraction? : List Char → Option (List Nat × List Char)
  | '.' :: rest =>
    let (ds, rest) := digits rest
    if ds.isEmpty then none else some (ds, rest)
  | cs => some ([], cs)

def power? (cs : List Char) : Option (Int × List Char) :=
  let (negative, cs) :=
    match cs with
    | '-' :: rest => (true, rest)
    | '+' :: rest => (false, rest)
    | cs => (false, cs)
  let (ds, rest) := digits cs
  if ds.isEmpty then none
  else
    let n : Int := Numeral.ofDigits ds
    some (if negative then -n else n, rest)

def exponent? : List Char → Option (Option Int × List Char)
  | 'e' :: rest => (power? rest).map fun p => (some p.1, p.2)
  | 'E' :: rest => (power? rest).map fun p => (some p.1, p.2)
  | cs => some (none, cs)

/-- Reads a numeral; no zero stands in front of other digits. -/
def numeral? (cs : List Char) : Option (Numeral × List Char) := do
  let (negative, cs) :=
    match cs with
    | '-' :: rest => (true, rest)
    | cs => (false, cs)
  let (whole, cs) := digits cs
  if whole.isEmpty || (whole.head? == some 0 && whole.length != 1) then none
  else do
    let (fraction, cs) ← fraction? cs
    let (exponent, cs) ← exponent? cs
    pure ({ negative, whole, fraction, exponent }, cs)

/-- Reads the token at the start of a text that does not start with a blank. -/
def token? : List Char → Option (Token × List Char)
  | '[' :: rest => some (.openArray, rest)
  | ']' :: rest => some (.closeArray, rest)
  | '\x7b' :: rest => some (.openObject, rest)
  | '\x7d' :: rest => some (.closeObject, rest)
  | ',' :: rest => some (.comma, rest)
  | ':' :: rest => some (.colon, rest)
  | '"' :: rest => (literal? rest).map fun p => (.string p.1, p.2)
  | 'n' :: 'u' :: 'l' :: 'l' :: rest => some (.null, rest)
  | 't' :: 'r' :: 'u' :: 'e' :: rest => some (.bool true, rest)
  | 'f' :: 'a' :: 'l' :: 's' :: 'e' :: rest => some (.bool false, rest)
  | cs => (numeral? cs).map fun p => (.number p.1, p.2)

def tokensWithin : Nat → List Char → Option (List Token)
  | 0, cs => if cs.isEmpty then some [] else none
  | bound + 1, cs =>
    match cs with
    | [] => some []
    | c :: rest =>
      if isSpace c then tokensWithin bound rest
      else do
        let (t, rest) ← token? (c :: rest)
        let ts ← tokensWithin bound rest
        pure (t :: ts)

def tokens? (cs : List Char) : Option (List Token) :=
  tokensWithin cs.length cs

/-! ## Trees -/

mutual
def valueWithin : Nat → List Token → Option (Json × List Token)
  | 0, _ => none
  | bound + 1, ts =>
    match ts with
    | .null :: rest => some (.null, rest)
    | .bool b :: rest => some (.bool b, rest)
    | .number n :: rest => some (.number n.value, rest)
    | .string s :: rest => some (.string s, rest)
    | .openArray :: .closeArray :: rest => some (.array [], rest)
    | .openArray :: rest => do
      let (items, rest) ← itemsWithin bound rest
      pure (.array items, rest)
    | .openObject :: .closeObject :: rest => some (.object [], rest)
    | .openObject :: rest => do
      let (members, rest) ← membersWithin bound rest
      pure (.object members, rest)
    | _ => none

def itemsWithin : Nat → List Token → Option (List Json × List Token)
  | 0, _ => none
  | bound + 1, ts => do
    let (item, rest) ← valueWithin bound ts
    match rest with
    | .closeArray :: rest => pure ([item], rest)
    | .comma :: rest => do
      let (items, rest) ← itemsWithin bound rest
      pure (item :: items, rest)
    | _ => none

def membersWithin : Nat → List Token → Option (List (Literal × Json) × List Token)
  | 0, _ => none
  | bound + 1, ts =>
    match ts with
    | .string key :: .colon :: rest => do
      let (value, rest) ← valueWithin bound rest
      match rest with
      | .closeObject :: rest => pure ([(key, value)], rest)
      | .comma :: rest => do
        let (members, rest) ← membersWithin bound rest
        pure ((key, value) :: members, rest)
      | _ => none
    | _ => none
end

/-- Reads the one value that a text holds.  Each step takes a token or follows one that did, so
twice the tokens bound the steps. -/
def read? (text : String) : Option Json := do
  let ts ← tokens? text.toList
  match ← valueWithin (2 * ts.length + 1) ts with
  | (value, []) => pure value
  | _ => none

end Dialogue.Json
