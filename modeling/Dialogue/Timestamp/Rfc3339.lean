import Dialogue.Text.Blank
import Dialogue.Timestamp.Basic
import Dialogue.Timestamp.Calendar
/-!
# Timestamps as text

The form of RFC 3339: a date, a time of day and an offset from Universal Time.  Reading is more
generous than writing: white space may stand between the parts, a number may have fewer digits, and
the offset may be spelled out.
-/

namespace Dialogue.Timestamp

/-! ## Reading -/

def skipBlanks (cs : List Char) : List Char :=
  cs.dropWhile Text.isBlank

def digitsValue (cs : List Char) : Nat :=
  cs.foldl (fun n c => n * 10 + (c.toNat - '0'.toNat)) 0

def number? (width : Nat) (cs : List Char) : Option (Nat × List Char) :=
  let ds := (cs.take width).takeWhile Char.isDigit
  if ds.isEmpty then none else some (digitsValue ds, cs.drop ds.length)

def twoDigits? (cs : List Char) : Option (Nat × List Char) :=
  number? 2 (skipBlanks cs)

def mark? (c : Char) (cs : List Char) : Option (List Char) :=
  [c].isPrefixOf? (skipBlanks cs)

/-- Reads a year: four digits at most, or any number behind a sign. -/
def year? (cs : List Char) : Option (Int × List Char) :=
  match skipBlanks cs with
  | '-' :: rest => (number? rest.length rest).map fun p => (-(p.1 : Int), p.2)
  | '+' :: rest => (number? rest.length rest).map fun p => ((p.1 : Int), p.2)
  | rest => (number? 4 rest).map fun p => ((p.1 : Int), p.2)

def date? (cs : List Char) : Option (Date × List Char) := do
  let (year, cs) ← year? cs
  let (month, cs) ← twoDigits? (← mark? '-' cs)
  let (day, cs) ← twoDigits? (← mark? '-' cs)
  pure ({ year, month, day }, cs)

/-- Reads a fraction of a second as nanoseconds, if there is one.  Digits after the ninth are
passed over. -/
def fraction? : List Char → Option (Nat × List Char)
  | '.' :: rest =>
    let ds := rest.takeWhile Char.isDigit
    if ds.isEmpty then none
    else some (digitsValue ((ds ++ List.replicate 9 '0').take 9), rest.drop ds.length)
  | cs => some (0, cs)

def time? (cs : List Char) : Option (Nat × Nat × List Char) := do
  let (hour, cs) ← twoDigits? cs
  let (minute, cs) ← twoDigits? (← mark? ':' cs)
  let (second, cs) ← twoDigits? (← mark? ':' cs)
  let (nanos, cs) ← fraction? cs
  if hour < 24 ∧ minute < 60 ∧ second ≤ 60 then
    let whole := hour * 3600 + minute * 60
    if second = 60 then pure (whole + 59, nanos + 1000000000, cs)
    else pure (whole + second, nanos, cs)
  else none

def offsetMinutes? : List Char → Option (Nat × List Char)
  | a :: b :: rest =>
    if a.isDigit ∧ b.isDigit ∧ digitsValue [a, b] < 60 then some (digitsValue [a, b], rest)
    else none
  | _ => none

def offsetSize? : List Char → Option (Int × List Char)
  | a :: b :: rest =>
    if a.isDigit ∧ b.isDigit then do
      let (minutes, rest) ← offsetMinutes? (rest.dropWhile fun c => c == ':' || Text.isBlank c)
      pure (((digitsValue [a, b] * 3600 + minutes * 60 : Nat) : Int), rest)
    else none
  | _ => none

def offset? (cs : List Char) : Option (Int × List Char) :=
  match cs with
  | '+' :: rest => offsetSize? rest
  | '-' :: rest => (offsetSize? rest).map fun p => (-p.1, p.2)
  | '\u2212' :: rest => (offsetSize? rest).map fun p => (-p.1, p.2)
  | c :: rest =>
    if c = 'Z' ∨ c = 'z' then some (0, rest)
    else if (cs.take 3).map Char.toUpper = ['U', 'T', 'C'] then some (0, cs.drop 3)
    else none
  | [] => none

def yearFits (year : Int) : Bool :=
  -262143 ≤ year && year ≤ 262142

def parse? (text : String) : Option Timestamp := do
  let (date, cs) ← date? text.toList
  let c ← cs.head?
  if c = 'T' ∨ c = 't' ∨ c = ' ' then
    let (seconds, nanoseconds, cs) ← time? cs.tail
    let (offset, cs) ← offset? (skipBlanks cs)
    let t : Timestamp :=
      { seconds := date.toDays * secondsPerDay + seconds - offset, nanoseconds }
    let utc := Date.ofDays (t.seconds.fdiv secondsPerDay)
    if (skipBlanks cs).isEmpty && date.isValid && yearFits date.year && yearFits utc.year
        && decide (offset.natAbs < 86400) then
      pure t
    else none
  else none

/-! ## Writing -/

def padded (width n : Nat) : String :=
  let ds := toString n
  String.ofList (List.replicate (width - ds.length) '0') ++ ds

/-- A year from zero to 9999 has four digits; any other has a sign. -/
def writeYear (year : Int) : String :=
  if year < 0 then "-" ++ padded 4 year.natAbs
  else if year ≤ 9999 then padded 4 year.toNat
  else "+" ++ padded 4 year.toNat

/-- A fraction of a second has none, three, six or nine digits. -/
def writeFraction (nanos : Nat) : String :=
  if nanos = 0 then ""
  else if nanos % 1000000 = 0 then "." ++ padded 3 (nanos / 1000000)
  else if nanos % 1000 = 0 then "." ++ padded 6 (nanos / 1000)
  else "." ++ padded 9 nanos

def format (t : Timestamp) : String :=
  let date := Date.ofDays (t.seconds.fdiv secondsPerDay)
  let time := t.timeOfDay.toNat
  let leap := if t.inLeapSecond then 1 else 0
  writeYear date.year ++ "-" ++ padded 2 date.month ++ "-" ++ padded 2 date.day
    ++ "T" ++ padded 2 (time / 3600) ++ ":" ++ padded 2 (time / 60 % 60)
    ++ ":" ++ padded 2 (time % 60 + leap)
    ++ writeFraction (t.nanoseconds - leap * 1000000000) ++ "Z"

end Dialogue.Timestamp
