import Setlist.Number.Numeral

/-! # Reading text

A reader takes characters from the front of a text, or fails. Readers follow one another in
`do` blocks. Blanks may surround a name, a number or a timestamp.
-/

namespace Setlist.Text

/-- White space: the ASCII controls and space, NEL, and the separators of the other scripts. -/
def isBlank (c : Char) : Bool :=
  ('\t' ≤ c && c ≤ '\r') || c == ' ' || c == '\u0085' || c == '\u00a0' || c == '\u1680' ||
  ('\u2000' ≤ c && c ≤ '\u200a') || c == '\u2028' || c == '\u2029' || c == '\u202f' ||
  c == '\u205f' || c == '\u3000'

def dropBlanks (text : List Char) : List Char := text.dropWhile isBlank

/-- A text without the blanks at its two ends. -/
def trimmed (text : List Char) : List Char := (dropBlanks (dropBlanks text).reverse).reverse

def trim (text : String) : String := String.ofList (trimmed text.toList)

abbrev Reader := StateT (List Char) Option

namespace Reader

def satisfy (test : Char → Bool) : Reader Char
  | [] => none
  | c :: rest => if test c then some (c, rest) else none

def literal (c : Char) : Reader Unit := do
  let _ ← satisfy (· == c)

def blanks : Reader Unit := fun text => some ((), dropBlanks text)

def ensure (test : Bool) : Reader Unit := fun text => if test then some ((), text) else none

/-- The digits in front, at most `most` of them if it is given, and at least one. -/
def digits (most : Option Nat) : Reader Nat := fun text =>
  let all := text.takeWhile Char.isDigit
  let run := match most with
    | some n => all.take n
    | none => all
  if run.isEmpty then none else some (digitsValue run, text.drop run.length)

def exactly (width : Nat) : Reader Nat := fun text =>
  let run := text.take width
  if run.length = width ∧ run.all Char.isDigit then some (digitsValue run, text.drop width)
  else none

/-- What a reader reads, if it takes the whole of a text. -/
def whole {α : Type} (reader : Reader α) (text : List Char) : Option α :=
  match reader text with
  | some (value, []) => some value
  | _ => none

end Reader

end Setlist.Text
