import Setlist.Text.Reader

/-! # Text in settings files

Spaces, comments and line ends, and the strings in their four kinds of quotes.
-/

namespace Setlist

namespace Toml

open Text Text.Reader

def isSpace (c : Char) : Bool := c == ' ' || c == '\t'

/-- Control characters other than the tab stand nowhere in a line. -/
def isControl (c : Char) : Bool := (c.toNat < 32 && c != '\t') || c.toNat == 127

def spaces : Reader Unit := fun text => some ((), text.dropWhile isSpace)

def peek : Reader (Option Char) := fun text => some (text.head?, text)

def failure {α : Type} : Reader α := fun _ => none

def taken (word : List Char) : Reader Bool := fun text =>
  if word.isPrefixOf text then some (true, text.drop word.length) else some (false, text)

/-- A reader that is left out, and answers no, unless a test holds. -/
def onlyIf (test : Bool) (reader : Reader Bool) : Reader Bool := if test then reader else pure false

def comment : Reader Unit
  | '#' :: text =>
    let line := text.takeWhile (· != '\n')
    let content := if line.getLast? = some '\r' then line.dropLast else line
    if content.any isControl then none else some ((), text.drop content.length)
  | text => some ((), text)

def newline : Reader Bool
  | '\n' :: rest => some (true, rest)
  | '\r' :: '\n' :: rest => some (true, rest)
  | text => some (false, text)

def gap : Nat → Reader Unit
  | 0 => pure ()
  | fuel + 1 => do
    spaces
    comment
    if ← newline then gap fuel

/-- A character by the hexadecimal digits of its code. -/
def codedChar (width : Nat) : Reader Char := fun text =>
  let digits := (text.take width).filterMap hexValue
  let code := digits.foldl (fun v d => 16 * v + d) 0
  if digits.length = width ∧ (code < 0xD800 ∨ (0xE000 ≤ code ∧ code < 0x110000)) then
    some (Char.ofNat code, text.drop width)
  else none

/-- The character that follows a backslash stands for. -/
def escaped : Reader Char := do
  match ← satisfy fun _ => true with
  | 'b' => return '\x08'
  | 't' => return '\t'
  | 'n' => return '\n'
  | 'f' => return '\x0c'
  | 'r' => return '\r'
  | '"' => return '"'
  | '\\' => return '\\'
  | 'u' => codedChar 4
  | 'U' => codedChar 8
  | _ => failure

/-- How a string is delimited, and whether it runs over lines between three marks. -/
structure Quote where
  mark : Char
  long : Bool

/-- The quotes of the content that directly precede the closing ones, if the string ends here.
A long string may have up to two of them. -/
def Quote.closing (q : Quote) : Reader (Option (List Char)) := fun text =>
  let run := text.takeWhile (· == q.mark)
  let width := if q.long then 3 else 1
  if run.length < width then some (none, text)
  else if !q.long then some (some [], text.drop 1)
  else if run.length ≤ 5 then some (some (run.drop 3), text.drop run.length)
  else none

def dropLines : List Char → List Char
  | ' ' :: rest | '\t' :: rest | '\n' :: rest => dropLines rest
  | '\r' :: '\n' :: rest => dropLines rest
  | text => text

/-- A line end in a long string after a backslash takes all blanks after it along. -/
def lineJoin : Reader Bool := fun text =>
  match text.dropWhile isSpace with
  | '\n' :: rest | '\r' :: '\n' :: rest => some (true, dropLines rest)
  | _ => some (false, text)

/-- The rest of a string, given what was read of it in reverse. -/
def stringRest (q : Quote) : Nat → List Char → Reader String
  | 0, _ => failure
  | fuel + 1, done => do
    match ← q.closing with
    | some last => return String.ofList (done.reverse ++ last)
    | none =>
      if ← onlyIf q.long newline then stringRest q fuel ('\n' :: done)
      else
        let c ← satisfy fun _ => true
        if c == '\\' && q.mark == '"' then
          if ← onlyIf q.long lineJoin then stringRest q fuel done
          else stringRest q fuel ((← escaped) :: done)
        else if isControl c then failure
        else stringRest q fuel (c :: done)

/-- A string in double or single quotes; a line end right after three quotes does not count. -/
def string (fuel : Nat) (longToo : Bool) : Reader String := do
  let mark ← satisfy fun c => c == '"' || c == '\''
  if ← onlyIf longToo (taken [mark, mark]) then
    let _ ← newline
    stringRest ⟨mark, true⟩ fuel []
  else stringRest ⟨mark, false⟩ fuel []

end Toml

end Setlist
