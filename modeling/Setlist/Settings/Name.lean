import Setlist.Text.Reader

/-! # Names of settings

The name of a value may lead on to a part of it: a member, after a point, or an item, by its
index in brackets. A value of which a part is given is no longer a single one.
-/

namespace Setlist

namespace Settings

open Text Text.Reader

def isNameChar (c : Char) : Bool := c.isAlphanum || c == ' ' || c == '_' || c == '-'

def word : Reader String := fun text =>
  let chars := text.takeWhile isNameChar
  if chars.isEmpty then none else some (String.ofList chars, text.drop chars.length)

def indexSpaces : Reader Unit := fun text => some ((), text.dropWhile fun c => c == ' ' || c == '\t')

/-- An index counts from the end if it is negative, and is a signed 64-bit integer. -/
def index : Reader Unit := fun text => do
  let sign := if text.head? = some '-' then ['-'] else []
  let (magnitude, rest) ← digits none (text.drop sign.length)
  if magnitude < 2 ^ 63 ∨ (sign ≠ [] ∧ magnitude = 2 ^ 63) then some ((), rest) else none

def part : Reader Unit := fun text =>
  match text with
  | '.' :: rest => (word rest).map fun (_, rest) => ((), rest)
  | '[' :: rest => (do indexSpaces; index; indexSpaces; literal ']' : Reader Unit) rest
  | _ => none

def parts : Nat → Reader Unit
  | 0 => ensure false
  | fuel + 1 => fun text => if text.isEmpty then some ((), []) else (do part; parts fuel) text

/-- The value that a name leads to, and whether it leads to a part of it only. Any other text
is a name by itself. -/
def target (name : String) : String × Bool :=
  match word name.toList with
  | some (root, rest) =>
    match (parts (rest.length + 1)).whole rest with
    | some () => (root, !rest.isEmpty)
    | none => (name, false)
  | none => (name, false)

end Settings

end Setlist
