import Setlist.Calendar.Date

/-! # Instants

An instant is a second of the epoch and a fraction. Within a leap second the fraction runs
on past one while the second stays at fifty-nine.
-/

namespace Setlist

structure Instant where
  seconds : Int
  nanos : Nat
  deriving DecidableEq, Repr

namespace Instant

def secondsPerDay : Int := 86400

def nanosPerSecond : Nat := 1000000000

/-- The days from the start of the year zero to the epoch. -/
def epochDay : Int := 719528

def atMidnight (d : Date) : Instant := ⟨(d.toDays - epochDay) * secondsPerDay, 0⟩

/-- The second 60 is the leap second after fifty-nine. -/
def ofClock (d : Date) (hour minute second nanos : Nat) : Instant :=
  let start := (atMidnight d).seconds + hour * 3600 + minute * 60
  if second = 60 then ⟨start + 59, nanosPerSecond + nanos⟩ else ⟨start + second, nanos⟩

def date (i : Instant) : Date := .ofDays (i.seconds / secondsPerDay + epochDay)

def secondOfDay (i : Instant) : Nat := (i.seconds % secondsPerDay).toNat

def earliest : Instant := atMidnight ⟨Date.minYear, 1, 1⟩

def latestSecond : Int := (atMidnight ⟨Date.maxYear, 12, 31⟩).seconds + 86399

/-- Chronological order; a leap second comes after its fifty-ninth. -/
def compare (a b : Instant) : Ordering := (Ord.compare a.seconds b.seconds).then
  (Ord.compare a.nanos b.nanos)

/-- Without the fraction; a leap second stays one. -/
def truncated (i : Instant) : Instant := ⟨i.seconds, i.nanos / nanosPerSecond * nanosPerSecond⟩

def shifted (i : Instant) (seconds : Int) : Instant := ⟨i.seconds + seconds, i.nanos⟩

/-- The instant some milliseconds before another. To leave a leap second by whole seconds
counts from the second after it. -/
def before? (i : Instant) (millis : Int) : Option Instant :=
  let whole := (-millis).tdiv 1000
  let part := (-millis).tmod 1000 * 1000000
  let leaves := nanosPerSecond ≤ i.nanos ∧
    (0 < whole ∨ whole < 0 ∨ (0 < part ∧ 2000000000 ≤ i.nanos + part))
  let result : Instant :=
    if nanosPerSecond ≤ i.nanos ∧ ¬leaves then ⟨i.seconds, (i.nanos + part).toNat⟩
    else
      let fraction := if leaves then (i.nanos : Int) - nanosPerSecond else i.nanos
      let start := if leaves ∧ whole < 0 then i.seconds + 1 else i.seconds
      let total := fraction + part
      ⟨start + whole + total / nanosPerSecond, (total % nanosPerSecond).toNat⟩
  if earliest.seconds ≤ result.seconds ∧ result.seconds ≤ latestSecond then some result else none

end Instant

end Setlist
