import Setlist.Calendar.Instant
import Setlist.Number.Numeral
import Setlist.Text.Reader

/-! # Timestamps

Instants are stored as a date and a time of day in universal time. Reading admits that
layout leniently, the exact internet layout with an offset, and a bare date.
-/

namespace Setlist

namespace Timestamp

def padded (width value : Nat) : List Char :=
  let digits := Nat.toDigits 10 value
  List.replicate (width - digits.length) '0' ++ digits

/-- Four digits; years beyond them, on either side, carry a sign. -/
def yearChars (year : Int) : List Char :=
  if 0 ≤ year ∧ year ≤ 9999 then padded 4 year.toNat
  else (if year < 0 then '-' else '+') :: padded 4 year.natAbs

def dateChars (d : Date) : List Char :=
  yearChars d.year ++ '-' :: (padded 2 d.month ++ '-' :: padded 2 d.day)

def timeChars (i : Instant) : List Char :=
  let second := i.secondOfDay % 60 + i.nanos / Instant.nanosPerSecond
  padded 2 (i.secondOfDay / 3600) ++ ':' ::
    (padded 2 (i.secondOfDay / 60 % 60) ++ ':' :: padded 2 second)

def chars (i : Instant) : List Char := dateChars i.date ++ ' ' :: timeChars i

def format (i : Instant) : String := String.ofList (chars i)

open Text Text.Reader

def validDate (year : Int) (month day : Nat) : Reader Date := do
  let d : Date := ⟨year, month, day⟩
  ensure d.isValid
  return d

def validTime (d : Date) (hour minute second nanos : Nat) : Reader Instant := do
  ensure (hour ≤ 23 && minute ≤ 59 && second ≤ 60)
  return .ofClock d hour minute second nanos

/-- A point and digits, the first nine of which count. -/
def fraction : Reader Nat
  | '.' :: rest =>
    let run := rest.takeWhile Char.isDigit
    let kept := run.take 9
    if run.isEmpty then none
    else some (digitsValue kept * 10 ^ (9 - kept.length), rest.dropWhile Char.isDigit)
  | text => some (0, text)

/-- The seconds by which local time is ahead of universal time. -/
def offset : Reader Int := do
  let c ← satisfy fun c => c == 'Z' || c == 'z' || c == '+' || c == '-' || c == '\u2212'
  if c == 'Z' || c == 'z' then return 0
  let hour ← exactly 2
  literal ':'
  let minute ← exactly 2
  ensure (hour ≤ 23 && minute ≤ 59)
  let ahead : Int := hour * 3600 + minute * 60
  return if c == '+' then ahead else -ahead

/-- Every number in its full width, then the offset. -/
def internetLayout : Reader Instant := do
  let year ← exactly 4
  literal '-'
  let month ← exactly 2
  literal '-'
  let day ← exactly 2
  let _ ← satisfy fun c => c == 'T' || c == 't' || c == ' '
  let hour ← exactly 2
  literal ':'
  let minute ← exactly 2
  literal ':'
  let second ← exactly 2
  let nanos ← fraction
  let ahead ← offset
  let d ← validDate year month day
  let i ← validTime d hour minute second nanos
  return i.shifted (-ahead)

/-- Up to four digits, or any number of them after a sign. -/
def lenientYear : Reader Int := do
  blanks
  fun text =>
    match text with
    | '-' :: rest => (digits none rest).map fun (value, rest) => (-(value : Int), rest)
    | '+' :: rest => (digits none rest).map fun (value, rest) => ((value : Int), rest)
    | _ => (digits (some 4) text).map fun (value, rest) => ((value : Int), rest)

/-- One or two digits after any blanks. -/
def lenientPair : Reader Nat := do
  blanks
  digits (some 2)

def lenientDate : Reader Date := do
  let year ← lenientYear
  literal '-'
  let month ← lenientPair
  literal '-'
  let day ← lenientPair
  validDate year month day

/-- A date and a time of day, with any amount of blanks before each number. -/
def storageLayout : Reader Instant := do
  let d ← lenientDate
  let hour ← lenientPair
  literal ':'
  let minute ← lenientPair
  literal ':'
  let second ← lenientPair
  validTime d hour minute second 0

/-- A date stands for its midnight. -/
def dateLayout : Reader Instant := do
  return .atMidnight (← lenientDate)

/-- Reads a timestamp in the first layout that takes all of the trimmed text. -/
def readChars (text : List Char) : Option Instant :=
  let text := Text.trimmed text
  internetLayout.whole text <|> storageLayout.whole text <|> dateLayout.whole text

def read? (text : String) : Option Instant := readChars text.toList

end Timestamp

end Setlist
