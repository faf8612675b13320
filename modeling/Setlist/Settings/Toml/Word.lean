import Setlist.Calendar.Timestamp
import Setlist.Settings.Given
import Setlist.Settings.Toml.Text

/-! # Words in settings files

Unquoted values: truth values, numbers in several bases, and dates and times, which are kept
as texts.
-/

namespace Setlist

namespace Toml

open Text Text.Reader

def isBare (c : Char) : Bool := c.isAlphanum || c == '_' || c == '-'

def isWord (c : Char) : Bool := c.isAlphanum || c == '_' || c == '-' || c == '+' || c == '.' || c == ':'

/-- A number without its underscores, each of which must stand between two digits. -/
def withoutUnderscores (isDigit : Char → Bool) : List Char → Option (List Char)
  | c :: '_' :: d :: rest =>
    if c != '_' && isDigit c && isDigit d then
      (withoutUnderscores isDigit (d :: rest)).map (c :: ·)
    else none
  | c :: rest => if c == '_' then none else (withoutUnderscores isDigit rest).map (c :: ·)
  | [] => some []

def inBase (base : Nat) (digits : List Char) : Option Int := do
  let plain ← withoutUnderscores (fun c => (hexValue c).isSome) digits
  let values ← plain.mapM hexValue
  if plain.isEmpty ∨ values.any (base ≤ ·) then none
  else some (values.foldl (fun v d => base * v + d) 0 : Nat)

/-- A decimal integer or number. A number above all finite ones is refused; one below them all
is the negative infinity. -/
def decimal? (word : List Char) : Option Given := do
  let numeral ← Numeral.read? (← withoutUnderscores Char.isDigit word)
  if numeral.whole.isEmpty ∨ numeral.fraction = some [] ∨
      (1 < numeral.whole.length ∧ numeral.whole.head? = some '0') then none
  else if numeral.isInteger then
    let magnitude : Int := digitsValue numeral.whole
    let value := if numeral.isNegative then -magnitude else magnitude
    some (.integer value)
  else if numeral.toBinary64 = .infinity false then none
  else some (.real numeral.toBinary64)

def clock : Reader (List Char) := do
  let hour ← exactly 2
  literal ':'
  let minute ← exactly 2
  literal ':'
  let second ← exactly 2
  let nanos ← Timestamp.fraction
  ensure (hour ≤ 23 && minute ≤ 59 && second ≤ 60)
  let part := (Timestamp.padded 9 nanos).reverse.dropWhile (· == '0')
  let fraction := if nanos = 0 then [] else '.' :: part.reverse
  return Timestamp.padded 2 hour ++ ':' :: (Timestamp.padded 2 minute ++ ':' ::
    (Timestamp.padded 2 second ++ fraction))

def zone : Reader (List Char)
  | [] => some ([], [])
  | text => do
    let (ahead, rest) ← Timestamp.offset text
    let minutes := ahead.natAbs / 60
    let sign := if ahead < 0 then '-' else '+'
    let named := text.head?.any fun c => c == 'Z' || c == 'z'
    return (if named then ['Z'] else
      sign :: (Timestamp.padded 2 (minutes / 60) ++ ':' :: Timestamp.padded 2 (minutes % 60)), rest)

def date : Reader (List Char) := do
  let year ← exactly 4
  literal '-'
  let month ← exactly 2
  literal '-'
  let day ← exactly 2
  let d ← Timestamp.validDate year month day
  return Timestamp.dateChars d

def dateTime : Reader (List Char) := do
  let day ← date
  let _ ← satisfy fun c => c == 'T' || c == 't'
  let time ← clock
  return day ++ 'T' :: (time ++ (← zone))

def wordValue (word : List Char) : Option Given :=
  let (sign, unsigned) := Numeral.splitSign word
  if word = "true".toList then some (.bool true)
  else if word = "false".toList then some (.bool false)
  else if unsigned = "inf".toList then some (.real (.infinity (sign == some '-')))
  else if unsigned = "nan".toList then some (.real (.nan (sign == some '-')))
  else
    let number? : Option Given := match word with
      | '0' :: 'x' :: digits => (inBase 16 digits).map .integer
      | '0' :: 'o' :: digits => (inBase 8 digits).map .integer
      | '0' :: 'b' :: digits => (inBase 2 digits).map .integer
      | _ => decimal? word
    match number? with
    | some (.integer value) =>
      if -2 ^ 63 ≤ value ∧ value < 2 ^ 63 then some (.integer value) else none
    | some other => some other
    | none =>
      ((date.whole word <|> clock.whole word <|> dateTime.whole word)).map fun t =>
        .text (String.ofList t)

/-- An unquoted value. A blank may stand between a date and a time. -/
def word : Reader Given := fun text =>
  let first := text.takeWhile isWord
  let rest := text.dropWhile isWord
  let (whole, rest) := match (date.whole first).isSome, rest with
    | true, ' ' :: c :: more =>
      if c.isDigit then
        (first ++ 'T' :: (c :: more).takeWhile isWord, (c :: more).dropWhile isWord)
      else (first, rest)
    | _, _ => (first, rest)
  (wordValue whole).map (·, rest)

end Toml

end Setlist
