import Setlist.Calendar.Timestamp

/-! # Stored times

Rows are dated by the database, and queries compare days through its own reader of times. It
counts from a noon in late 4714 BC to the end of the year 9999, and knows no leap seconds.
-/

namespace Setlist

namespace Timestamp

open Text Text.Reader

/-- The first second that the database counts, at noon of a day in late 4714 BC. -/
def firstCounted : Int := (Instant.ofClock ⟨-4713, 11, 24⟩ 12 0 0 0).seconds

/-- The last second that the database counts. -/
def lastCounted : Int := (Instant.ofClock ⟨9999, 12, 31⟩ 23 59 59 0).seconds

/-- The milliseconds of the epoch. A leap second coincides with the second after it. -/
def millis (i : Instant) : Int := i.seconds * 1000 + (i.nanos / 1000000 : Nat)

/-- The date as the database counts it. Up to the year 300, its calendar has a 29th of February
in place of the first of March in one year of four hundred. -/
def countedDate (d : Date) : Date :=
  if d.year ≤ 300 ∧ (d.year - 300) % 400 = 0 ∧ d.month = 3 ∧ d.day = 1 then ⟨d.year, 2, 29⟩ else d

/-- In a century year before the year zero that is no leap year, the database counts a day too
many from March on, and into the February after it. -/
def miscount (d : Date) : Int :=
  let year := if d.month ≤ 2 then d.year - 1 else d.year
  if year < 0 ∧ year % 100 = 0 ∧ year % 400 ≠ 0 then 1 else 0

/-- The date that the database makes of a written one. It counts the days of a date after the
28th, which may not be in the month. -/
def readDate (d : Date) : Date :=
  if d.day ≤ 28 then d else countedDate (.ofDays (d.toDays + miscount d))

/-- How the database writes an instant of its clock, without the fraction; none if it does not
count it. The very first instant stands for a clock that cannot be read. -/
def stamp? (now : Instant) : Option String :=
  let count := millis now
  let second : Instant := ⟨count / 1000, 0⟩
  if firstCounted * 1000 < count ∧ second.seconds ≤ lastCounted then
    some (String.ofList (dateChars (countedDate second.date) ++ ' ' :: timeChars second))
  else none

/-- A year with its sign, in exactly four digits. -/
def plainYear : Reader Int := fun text =>
  match text with
  | '-' :: rest => (exactly 4 rest).map fun (value, rest) => (-(value : Int), rest)
  | _ => (exactly 4 text).map fun (value, rest) => ((value : Int), rest)

/-- The date of a time in the storage layout, as far as the database reads it. -/
def plainDate : Reader Date := do
  let year ← plainYear
  literal '-'
  let month ← exactly 2
  literal '-'
  let day ← exactly 2
  literal ' '
  let hour ← exactly 2
  literal ':'
  let minute ← exactly 2
  literal ':'
  let second ← exactly 2
  let d : Date := ⟨year, month, day⟩
  ensure (1 ≤ month && month ≤ 12 && 1 ≤ day && day ≤ 31)
  ensure (hour ≤ 23 && minute ≤ 59 && second ≤ 59)
  ensure (firstCounted ≤ (Instant.ofClock d hour minute second 0).seconds)
  return d

/-- The text of the day that a stored time lies in, if the database can read the time. -/
def day? (text : String) : Option String :=
  (plainDate.whole text.toList).map fun d => String.ofList (dateChars (readDate d))

end Timestamp

end Setlist
