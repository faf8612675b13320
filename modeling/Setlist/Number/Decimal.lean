import Setlist.Number.Binary64

/-! # Decimal notation

A decimal is an integer times a power of ten. Reading rounds it to the nearest binary
number; writing takes the coarsest decimal grid on which some point reads back.
-/

namespace Setlist

structure Decimal where
  digits : Nat
  exponent : Int
  deriving DecidableEq, Repr

/-- Which neighbour to write when two are equally near. -/
inductive Tie
  | even | up
  deriving DecidableEq, Repr

namespace Decimal

/-- Above this exponent every nonzero decimal exceeds the finite numbers, and that far below
zero it rounds to nothing. -/
def exponentBound : Nat := 400

/-- The nearest binary code. Decimals far outside the range are settled by their exponent. -/
def nearestCode (d : Decimal) : Nat :=
  if d.digits = 0 then 0
  else if (exponentBound : Int) < d.exponent then Binary64.infinityCode
  else if d.exponent + d.digits.log2 + 1 < -(exponentBound : Int) then 0
  else
    Binary64.nearestCode (d.digits * 10 ^ d.exponent.toNat * 2 ^ 1074) (10 ^ (-d.exponent).toNat)

theorem nearestCode_lt (d : Decimal) : d.nearestCode < 2 ^ 63 := by
  have bound := Binary64.nearestCode_le (d.digits * 10 ^ d.exponent.toNat * 2 ^ 1074)
    (10 ^ (-d.exponent).toNat)
  unfold nearestCode
  split
  · decide
  · split
    · decide
    · split
      · decide
      · exact Nat.lt_of_le_of_lt bound (by decide)

def toBinary64 (negative : Bool) (d : Decimal) : Binary64 :=
  ⟨negative, d.nearestCode, d.nearestCode_lt⟩

/-- The point of the grid `10 ^ exponent` just below `units`, and the remainder as a fraction
of the grid. -/
def gridBelow (units : Nat) (exponent : Int) : Nat × Nat × Nat :=
  let num := units * 10 ^ (-exponent).toNat
  let den := 2 ^ 1074 * 10 ^ exponent.toNat
  (num / den, num % den, den)

/-- The nearer of the two neighbours on a grid that read back as `code`. -/
def onGrid (tie : Tie) (code : Nat) (exponent : Int) : Option Decimal :=
  let (below, rest, den) := gridBelow (Binary64.unitsOfCode code) exponent
  let low : Decimal := ⟨below, exponent⟩
  let high : Decimal := ⟨below + 1, exponent⟩
  match decide (low.nearestCode = code), decide (high.nearestCode = code) with
  | true, false => some low
  | false, true => some high
  | false, false => none
  | true, true =>
    match compare (2 * rest) den with
    | .lt => some low
    | .gt => some high
    | .eq => if tie = .even ∧ below % 2 = 0 then some low else some high

/-- Tries grids downwards from `10 ^ (depth - 1074)`; on the last one the value is a point. -/
def coarsest (tie : Tie) (code : Nat) : Nat → Decimal
  | 0 => ⟨Binary64.unitsOfCode code * 5 ^ 1074, -1074⟩
  | depth + 1 =>
    match onGrid tie code ((depth + 1 : Nat) - 1074) with
    | some d => d
    | none => coarsest tie code depth

/-- An exponent of ten above the magnitude of a code. -/
def exponentAbove (code : Nat) : Int :=
  (((Binary64.unitsOfCode code).log2 : Int) - 1073) * 30103 / 100000 + 1

/-- The fewest digits that read back as a nonzero code, and the nearest among those. -/
def shortest (tie : Tie) (code : Nat) : Decimal :=
  coarsest tie code (exponentAbove code + 1074).toNat

def digitChars (d : Decimal) : List Char := Nat.toDigits 10 d.digits

def leading (d : Decimal) : Int := d.digitChars.length - 1 + d.exponent

/-- Positional notation without superfluous zeros, and without a point in an integer. -/
def positional (d : Decimal) : List Char :=
  let digits := d.digitChars
  if 0 ≤ d.exponent then digits ++ List.replicate d.exponent.toNat '0'
  else
    let places := (-d.exponent).toNat
    if places < digits.length then
      digits.take (digits.length - places) ++ '.' :: digits.drop (digits.length - places)
    else
      '0' :: '.' :: List.replicate (places - digits.length) '0' ++ digits

/-- One digit before the point, and the exponent with its sign. -/
def scientific (d : Decimal) : List Char :=
  let power := d.leading
  let mantissa :=
    match d.digitChars with
    | first :: second :: more => first :: '.' :: second :: more
    | digits => digits
  let sign := if power < 0 then '-' else '+'
  mantissa ++ 'e' :: sign :: Nat.toDigits 10 power.natAbs

end Decimal

/-- A number as it is shown: all digits positional, whole numbers without a point. -/
def Binary64.display (x : Binary64) : String :=
  if x.isNaN then "NaN"
  else
    let sign := if x.negative then ['-'] else []
    let body :=
      if !x.isFinite then "inf".toList
      else if x.isZero then ['0']
      else (Decimal.shortest .up x.code).positional
    String.ofList (sign ++ body)

end Setlist
