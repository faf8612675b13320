import Setlist.Number.Numeral
import Setlist.Text.Fold

/-! # Given values

What a source gives for a setting, and what it can be converted to as far as it has a
reading as such.
-/

namespace Setlist

inductive Given
  | bool (value : Bool)
  | integer (value : Int)
  | real (value : Binary64)
  | text (value : String)
  | compound
  deriving DecidableEq, Repr

namespace Given

/-- A value in the environment is a truth value, an integer or a number if it reads as one. -/
def ofText (text : String) : Given :=
  match Text.fold text with
  | "true" => bool true
  | "false" => bool false
  | _ =>
    match (Numeral.integer? text.toList).filter fun value => -2 ^ 63 ≤ value ∧ value < 2 ^ 63 with
    | some value => integer value
    | none =>
      match Binary64.read? text with
      | some value => real value
      | none => Given.text text

/-- A number rounded to the nearest count; below zero it counts as none, and too large as the
largest. -/
def countOfReal (value : Binary64) : Nat :=
  if value.isNaN then 0 else min value.roundAway.toNat (2 ^ 64 - 1)

/-- The count that a text reads as. -/
def countOfText (text : String) : Option Nat :=
  match Text.fold text with
  | "true" | "on" | "yes" => some 1
  | "false" | "off" | "no" => some 0
  | _ =>
    if text.startsWith "-" then none
    else (Numeral.integer? text.toList).map Int.toNat

def count? (most : Nat) (given : Given) : Option Nat :=
  let value? := match given with
    | integer value => if value < 0 then none else some value.toNat
    | real value => some (countOfReal value)
    | bool value => some (if value then 1 else 0)
    | text value => countOfText value
    | compound => none
  value?.filter (· ≤ most)

def text? : Given → Option String
  | integer value => some (toString value)
  | real value => some value.display
  | bool true => some "true"
  | bool false => some "false"
  | text value => some value
  | compound => none

end Given

end Setlist
