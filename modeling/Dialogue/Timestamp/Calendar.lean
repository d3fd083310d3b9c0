/-!
# The calendar

Days of the Gregorian calendar, which is taken to hold for all years, by year, month and day and by
their number since the first day of 1970.
-/

namespace Dialogue

structure Date where
  year : Int
  month : Nat
  day : Nat
  deriving DecidableEq, Repr

namespace Date

def isLeapYear (year : Int) : Bool :=
  year.fmod 4 = 0 && (year.fmod 100 != 0 || year.fmod 400 = 0)

def daysBeforeYear (year : Int) : Int :=
  365 * (year - 1) + (year - 1).fdiv 4 - (year - 1).fdiv 100 + (year - 1).fdiv 400

def monthLengths (leap : Bool) : List Nat :=
  [31, if leap then 29 else 28, 31, 30, 31, 30, 31, 31, 30, 31, 30, 31]

def daysBeforeMonth (leap : Bool) (month : Nat) : Nat :=
  ((monthLengths leap).take (month - 1)).foldl (· + ·) 0

def isValid (d : Date) : Bool :=
  match d.month with
  | 0 => false
  | m + 1 => ((monthLengths (isLeapYear d.year))[m]?).any fun n => 1 ≤ d.day && d.day ≤ n

def toDays (d : Date) : Int :=
  daysBeforeYear d.year - daysBeforeYear 1970
    + daysBeforeMonth (isLeapYear d.year) d.month + d.day - 1

/-- The year of the day with number `n` since the first day of year 1: an estimate by the mean
length of a year, which is off by one at most. -/
def yearOf (n : Int) : Int :=
  let year := (400 * n).fdiv 146097 + 1
  if n < daysBeforeYear year then year - 1
  else if daysBeforeYear (year + 1) ≤ n then year + 1
  else year

/-- The month and day that lie `n` days into months of the given lengths, from month `month` on. -/
def monthOf (month n : Nat) : List Nat → Nat × Nat
  | [] => (month, n + 1)
  | length :: lengths =>
    if n < length then (month, n + 1) else monthOf (month + 1) (n - length) lengths

def ofDays (days : Int) : Date :=
  let n := days + daysBeforeYear 1970
  let year := yearOf n
  let (month, day) :=
    monthOf 1 (n - daysBeforeYear year).toNat (monthLengths (isLeapYear year))
  { year, month, day }

end Date

end Dialogue
