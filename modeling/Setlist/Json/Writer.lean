import Setlist.Json.Value

/-! # Writing JSON

The compact text of a value. Only the quote, the backslash and the control characters are
escaped; a real number always shows a fraction or an exponent.
-/

namespace Setlist

def hexPair (code : Nat) : List Char := [Nat.digitChar (code / 16), Nat.digitChar (code % 16)]

namespace JsonNumber

/-- Powers of ten of the first digit that are written positionally. -/
def leastPositional : Int := -5

def greatestPositional : Int := 15

/-- A nonzero magnitude: positional with a fraction, or scientific. -/
def realChars (d : Decimal) : List Char :=
  if leastPositional ≤ d.leading ∧ d.leading ≤ greatestPositional then
    if 0 ≤ d.exponent then d.positional ++ ['.', '0'] else d.positional
  else d.scientific

def chars : JsonNumber → List Char
  | integer value =>
    if value < 0 then '-' :: Nat.toDigits 10 value.natAbs else Nat.toDigits 10 value.natAbs
  | real value =>
    let body :=
      if value.isZero then ['0', '.', '0']
      else realChars (Decimal.shortest .even value.code)
    if value.negative then '-' :: body else body

def text (n : JsonNumber) : String := String.ofList n.chars

end JsonNumber

namespace Json

def escapeChar (c : Char) : List Char :=
  match c with
  | '"' => ['\\', '"']
  | '\\' => ['\\', '\\']
  | '\x08' => ['\\', 'b']
  | '\x0c' => ['\\', 'f']
  | '\n' => ['\\', 'n']
  | '\r' => ['\\', 'r']
  | '\t' => ['\\', 't']
  | c => if c.toNat < 32 then '\\' :: 'u' :: '0' :: '0' :: hexPair c.toNat else [c]

def quote (value : String) : List Char := '"' :: (value.toList.flatMap escapeChar ++ ['"'])

mutual

def chars : Json → List Char
  | null => "null".toList
  | bool true => "true".toList
  | bool false => "false".toList
  | number value => value.chars
  | string value => quote value
  | array items => '[' :: (itemChars items ++ [']'])
  | object members => '\x7b' :: (memberChars members ++ ['\x7d'])

def itemChars : List Json → List Char
  | [] => []
  | [item] => chars item
  | item :: next :: rest => chars item ++ ',' :: itemChars (next :: rest)

def memberChars : List (String × Json) → List Char
  | [] => []
  | [(key, value)] => quote key ++ ':' :: chars value
  | (key, value) :: next :: rest =>
    quote key ++ ':' :: (chars value ++ ',' :: memberChars (next :: rest))

end

def text (json : Json) : String := String.ofList json.chars

end Json

end Setlist
