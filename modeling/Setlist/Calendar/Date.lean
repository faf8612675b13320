/-! # Calendar dates

Dates of the Gregorian calendar, continued in both directions, and their numbers of days
counted from the first of January of the year zero.
-/

namespace Setlist

structure Date where
  year : Int
  month : Nat
  day : Nat
  deriving DecidableEq, Repr

namespace Date

def isLeap (year : Int) : Bool := year % 4 == 0 && (year % 100 != 0 || year % 400 == 0)

def monthLengths (year : Int) : List Nat :=
  [31, if isLeap year then 29 else 28, 31, 30, 31, 30, 31, 31, 30, 31, 30, 31]

def minYear : Int := -262143

def maxYear : Int := 262142

def isValid (d : Date) : Bool :=
  minYear ≤ d.year && d.year ≤ maxYear && 1 ≤ d.month && 1 ≤ d.day &&
  d.day ≤ ((monthLengths d.year)[d.month - 1]?).getD 0

/-- Days from the start of the year zero to the start of a year. -/
def daysBeforeYear (year : Int) : Int :=
  365 * year + (year + 3) / 4 - (year + 99) / 100 + (year + 399) / 400

def toDays (d : Date) : Int :=
  daysBeforeYear d.year +
    (((monthLengths d.year).take (d.month - 1)).foldr (· + ·) 0 : Nat) + d.day - 1

/-- The year that a day lies in. The mean year length is off by less than one year. -/
def yearOfDays (days : Int) : Int :=
  let guess := days * 400 / 146097
  if days < daysBeforeYear guess then guess - 1
  else if daysBeforeYear (guess + 1) ≤ days then guess + 1
  else guess

/-- Counts off whole months from a day of the year; `month` is the first of `lengths`. -/
def monthOfDay (month : Nat) : List Nat → Nat → Nat × Nat
  | [], day => (month, day + 1)
  | length :: rest, day =>
    if day < length then (month, day + 1) else monthOfDay (month + 1) rest (day - length)

def ofDays (days : Int) : Date :=
  let year := yearOfDays days
  let (month, day) := monthOfDay 1 (monthLengths year) (days - daysBeforeYear year).toNat
  ⟨year, month, day⟩

end Date

end Setlist
