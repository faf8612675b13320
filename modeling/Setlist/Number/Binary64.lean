/-! # Binary floating-point numbers

A number is a sign and a code below `2 ^ 63`; codes ascend with the magnitude they stand
for. All arithmetic is exact on integers, in units of `2 ^ -1074`, and rounds once to the
nearest code, a tie going to the even one.
-/

namespace Setlist

/-- Powers are the built-in ones, whatever else is in scope. -/
@[default_instance 20000]
instance (priority := 20000) builtinPower {α : Type} [NatPow α] : Pow α Nat := ⟨NatPow.pow⟩

structure Binary64 where
  negative : Bool
  code : Nat
  code_lt : code < 2 ^ 63 := by decide
  deriving DecidableEq, Repr

namespace Binary64

def infinityCode : Nat := 2047 * 2 ^ 52

/-- Units of `2 ^ -1074` that a code stands for. -/
def unitsOfCode (code : Nat) : Nat :=
  if code < 2 ^ 52 then code else (2 ^ 52 + code % 2 ^ 52) * 2 ^ (code / 2 ^ 52 - 1)

def isFinite (x : Binary64) : Bool := x.code < infinityCode

def isNaN (x : Binary64) : Bool := infinityCode < x.code

def isZero (x : Binary64) : Bool := x.code == 0

/-- The signed number of units of `2 ^ -1074`; an infinity counts as the next power of two. -/
def units (x : Binary64) : Int :=
  if x.negative then -(unitsOfCode x.code : Int) else unitsOfCode x.code

def zero : Binary64 := ⟨false, 0, by decide⟩

def infinity (negative : Bool) : Binary64 := ⟨negative, infinityCode, by decide⟩

def nan (negative : Bool) : Binary64 := ⟨negative, infinityCode + 2 ^ 51, by decide⟩

/-- A quotient rounded to the nearest integer, a half going to the even one. -/
def roundToEven (num den : Nat) : Nat :=
  let quotient := num / den
  let twice := 2 * (num % den)
  if twice < den ∨ (twice = den ∧ quotient % 2 = 0) then quotient else quotient + 1

/-- The code nearest to `num / den` units, or that of infinity. -/
def nearestCode (num den : Nat) : Nat :=
  let halvings := (num / den).log2 - 52
  min (halvings * 2 ^ 52 + roundToEven num (den * 2 ^ halvings)) infinityCode

theorem nearestCode_le (num den : Nat) : nearestCode num den ≤ infinityCode :=
  Nat.min_le_right _ _

/-- The number nearest to `num / den` units. -/
def ofUnits (negative : Bool) (num den : Nat) : Binary64 :=
  ⟨negative, nearestCode num den, Nat.lt_of_le_of_lt (nearestCode_le num den) (by decide)⟩

def ofInt (value : Int) : Binary64 := ofUnits (value < 0) (value.natAbs * 2 ^ 1074) 1

def mul (x y : Binary64) : Binary64 :=
  ofUnits (x.negative != y.negative) (unitsOfCode x.code * unitsOfCode y.code) (2 ^ 1074)

/-- A finite number rounded to the nearest integer, a half going away from zero. -/
def roundAway (x : Binary64) : Int :=
  let magnitude : Int := ((2 * unitsOfCode x.code + 2 ^ 1074) / 2 ^ 1075 : Nat)
  if x.negative then -magnitude else magnitude

/-- Numeric order; nothing compares with a NaN. -/
def compare? (x y : Binary64) : Option Ordering :=
  if x.isNaN || y.isNaN then none else some (compare x.units y.units)

def bits (x : Binary64) : Nat := (if x.negative then 2 ^ 63 else 0) + x.code

end Binary64

end Setlist
