import Setlist.Number.Decimal

/-! # Written numbers

The shape shared by all written numbers: an optional sign, digits around an optional point,
and an optional exponent. A format then says which shapes it admits.
-/

namespace Setlist

/-- `exponent` is present only with a digit, and carries its own sign. -/
structure Numeral where
  sign : Option Char
  whole : List Char
  fraction : Option (List Char)
  exponent : Option Int
  deriving DecidableEq, Repr

def digitsValue (digits : List Char) : Nat :=
  digits.foldl (fun value c => 10 * value + (c.toNat - '0'.toNat)) 0

def hexValue (c : Char) : Option Nat :=
  if '0' ≤ c ∧ c ≤ '9' then some (c.toNat - '0'.toNat)
  else if 'a' ≤ c ∧ c ≤ 'f' then some (c.toNat - 'a'.toNat + 10)
  else if 'A' ≤ c ∧ c ≤ 'F' then some (c.toNat - 'A'.toNat + 10)
  else none

namespace Numeral

def splitSign : List Char → Option Char × List Char
  | '+' :: rest => (some '+', rest)
  | '-' :: rest => (some '-', rest)
  | text => (none, text)

def splitFraction : List Char → Option (List Char) × List Char
  | '.' :: rest => (some (rest.takeWhile Char.isDigit), rest.dropWhile Char.isDigit)
  | text => (none, text)

def integer? (text : List Char) : Option Int :=
  let (sign, digits) := splitSign text
  if digits.isEmpty || !digits.all Char.isDigit then none
  else if sign = some '-' then some (-(digitsValue digits : Int))
  else some (digitsValue digits)

/-- Reads a whole text as a number of this shape, with at least one digit before the exponent. -/
def read? (text : List Char) : Option Numeral :=
  let (sign, text) := splitSign text
  let whole := text.takeWhile Char.isDigit
  let (fraction, rest) := splitFraction (text.dropWhile Char.isDigit)
  if whole.isEmpty && (fraction.getD []).isEmpty then none
  else
    match rest with
    | [] => some ⟨sign, whole, fraction, none⟩
    | e :: power =>
      if e == 'e' || e == 'E' then
        (integer? power).map fun value => ⟨sign, whole, fraction, some value⟩
      else none

def isNegative (n : Numeral) : Bool := n.sign == some '-'

def decimal (n : Numeral) : Decimal :=
  let fraction := n.fraction.getD []
  ⟨digitsValue (n.whole ++ fraction), n.exponent.getD 0 - fraction.length⟩

def toBinary64 (n : Numeral) : Binary64 := n.decimal.toBinary64 n.isNegative

def isInteger (n : Numeral) : Bool := n.fraction.isNone && n.exponent.isNone

end Numeral

/-- Reads a number from text. The names of infinity and of no number count, in any case. -/
def Binary64.read? (text : String) : Option Binary64 :=
  match Numeral.read? text.toList with
  | some numeral => some numeral.toBinary64
  | none =>
    let (sign, word) := Numeral.splitSign text.toList
    match String.ofList (word.map Char.toLower) with
    | "inf" | "infinity" => some (.infinity (sign == some '-'))
    | "nan" => some (.nan (sign == some '-'))
    | _ => none

end Setlist
