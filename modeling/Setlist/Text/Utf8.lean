import Setlist.Number.Binary64

/-! # Bytes as text

Bytes are read as UTF-8. Where they hold no character, the start of one, or a single byte, is
malformed as a whole.
-/

namespace Setlist.Text.Utf8

/-- How many bytes a character has that begins with a given one. -/
def width? (lead : Nat) : Option Nat :=
  if lead < 0x80 then some 1
  else if lead < 0xC2 then none
  else if lead < 0xE0 then some 2
  else if lead < 0xF0 then some 3
  else if lead < 0xF5 then some 4
  else none

/-- The bounds of the second byte: no character is longer than it needs to be, none is a
surrogate, and none is beyond the last. -/
def secondBounds (lead : Nat) : Nat × Nat :=
  if lead = 0xE0 then (0xA0, 0xBF)
  else if lead = 0xED then (0x80, 0x9F)
  else if lead = 0xF0 then (0x90, 0xBF)
  else if lead = 0xF4 then (0x80, 0x8F)
  else (0x80, 0xBF)

def tail (lead width : Nat) (bytes : List Nat) : List Nat :=
  match bytes.take (width - 1) with
  | [] => []
  | second :: rest =>
    let (low, high) := secondBounds lead
    if low ≤ second ∧ second ≤ high then
      second :: rest.takeWhile fun byte => 0x80 ≤ byte ∧ byte ≤ 0xBF
    else []

def leadBits (lead width : Nat) : Nat := if width = 1 then lead else lead % 2 ^ (7 - width)

/-- A stretch of bytes: a character, or bytes that are none, perhaps for want of more. -/
inductive Stretch
  | char (c : Char) (length : Nat)
  | malformed (length : Nat) (unfinished : Bool)
  deriving DecidableEq, Repr

def Stretch.length : Stretch → Nat
  | char _ length => length
  | malformed length _ => length

def first (lead : Nat) (rest : List Nat) : Stretch :=
  match width? lead with
  | none => .malformed 1 false
  | some width =>
    let tail := tail lead width rest
    if tail.length + 1 = width then
      .char (.ofNat (tail.foldl (fun n byte => n * 64 + byte % 64) (leadBits lead width))) width
    else .malformed (tail.length + 1) (tail.length == rest.length)

def stretches : List Nat → List Stretch
  | [] => []
  | lead :: rest =>
    let stretch := first lead rest
    stretch :: stretches (rest.drop (stretch.length - 1))
termination_by bytes => bytes.length
decreasing_by simp only [List.length_drop, List.length_cons]; omega

def lossy (bytes : List Nat) : String :=
  .ofList ((stretches bytes).map fun
    | .char c _ => c
    | .malformed .. => '\uFFFD')

/-- Why bytes are no text: where the first malformed stretch begins, and its length unless it
is unfinished. -/
structure Fault where
  index : Nat
  length : Option Nat
  deriving DecidableEq, Repr

def textFrom (index : Nat) : List Stretch → Except Fault (List Char)
  | [] => .ok []
  | .char c length :: rest => (textFrom (index + length) rest).map (c :: ·)
  | .malformed length unfinished :: _ => .error ⟨index, if unfinished then none else some length⟩

def text (bytes : List Nat) : Except Fault String :=
  (textFrom 0 (stretches bytes)).map .ofList

def Fault.message (fault : Fault) : String :=
  match fault.length with
  | some length =>
    "invalid utf-8 sequence of " ++ toString length ++ " bytes from index " ++ toString fault.index
  | none => "incomplete utf-8 byte sequence from index " ++ toString fault.index

end Setlist.Text.Utf8
