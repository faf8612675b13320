import Setlist.Settings.Toml.Word

/-! # Settings files

A settings file is in TOML. Of its values only those that can be a setting are told apart;
arrays and tables are read and checked, but kept as compounds without their content.
-/

namespace Setlist

namespace Toml

open Text Text.Reader

def bareKey : Reader String := fun text =>
  let key := text.takeWhile isBare
  if key.isEmpty then none else some (String.ofList key, text.drop key.length)

def simpleKey (fuel : Nat) : Reader String := do
  match ← peek with
  | some '"' | some '\'' => string fuel false
  | _ => bareKey

def key : Nat → Reader (List String)
  | 0 => failure
  | fuel + 1 => do
    let first ← simpleKey (fuel + 1)
    spaces
    if ← taken ['.'] then
      spaces
      return first :: (← key fuel)
    else return [first]

/-- How many keys a path may have, and how many values may stand within one another. -/
def nestingLimit : Nat := 79

/-- A path of keys that is not too long. -/
def path (fuel : Nat) : Reader (List String) := do
  let keys ← key fuel
  ensure (keys.length ≤ nestingLimit)
  return keys

/-- What a path of keys has been used for. -/
inductive Use
  | value (given : Given)
  | dotted
  | implied
  | header
  | list
  deriving DecidableEq

abbrev Uses := List (List String × Use)

def Uses.at? (uses : Uses) (path : List String) : Option Use :=
  (uses.find? (·.1 == path)).map (·.2)

/-- Marks the tables on the way to a path, if they may be there. -/
def enter (mark : Use) (mayPass : Use → Bool) (uses : Uses) (start : List String) :
    List String → Option Uses
  | [] => some uses
  | [_] => some uses
  | key :: next :: rest =>
    let path := start ++ [key]
    match uses.at? path with
    | none => enter mark mayPass (uses ++ [(path, mark)]) path (next :: rest)
    | some use => if mayPass use then enter mark mayPass uses path (next :: rest) else none

def isOpen (use : Use) : Bool := use == .dotted || use == .implied || use == .list

def assign (uses : Uses) (table keys : List String) (given : Given) : Option Uses := do
  let entered ← enter .dotted isOpen uses table keys
  if 1 < keys.length && entered.at? (table ++ keys.dropLast) != some .dotted then none
  match entered.at? (table ++ keys) with
  | none => some (entered ++ [(table ++ keys, .value given)])
  | some _ => none

def isValue : Use → Bool
  | .value _ => true
  | _ => false

def openTable (uses : Uses) (path : List String) : Option Uses := do
  let entered ← enter .implied (!isValue ·) uses [] path
  match entered.at? path with
  | none => some (entered ++ [(path, .header)])
  | some .implied => some (entered.map fun (p, use) => (p, if p == path then .header else use))
  | some _ => none

def openItem (uses : Uses) (path : List String) : Option Uses := do
  let entered ← enter .implied (!isValue ·) uses [] path
  match entered.at? path with
  | none => some (entered ++ [(path, .list)])
  | some .list =>
    some (entered.filter fun (p, _) => !(path.isPrefixOf p && path.length < p.length))
  | some _ => none

def lift {α : Type} : Option α → Reader α
  | some value => pure value
  | none => failure

mutual

/-- A value; `room` bounds the arrays and tables within one another. -/
def value (room : Nat) : Nat → Reader Given
  | 0 => failure
  | fuel + 1 => do
    match ← peek with
    | some '"' | some '\'' => return .text (← string (fuel + 1) true)
    | some '[' => do
      ensure (0 < room)
      literal '['
      items (room - 1) fuel
      return .compound
    | some '\x7b' => do
      ensure (0 < room)
      literal '\x7b'
      spaces
      if ← taken ['\x7d'] then return .compound
      members (room - 1) fuel []
      return .compound
    | _ => word

/-- The rest of an array; a comma may follow the last item. -/
def items (room : Nat) : Nat → Reader Unit
  | 0 => failure
  | fuel + 1 => do
    gap (fuel + 1)
    if ← taken [']'] then return
    let _ ← value room fuel
    gap (fuel + 1)
    if ← taken [','] then items room fuel
    else literal ']'

/-- The rest of a table in one line. -/
def members (room : Nat) : Nat → Uses → Reader Unit
  | 0, _ => failure
  | fuel + 1, uses => do
    spaces
    let keys ← path (fuel + 1)
    literal '='
    spaces
    let given ← value room fuel
    let uses ← lift (assign uses [] keys given)
    spaces
    if ← taken [','] then members room fuel uses
    else literal '\x7d'

end

/-- One line of a file: a table header, a value for a key, or nothing. -/
def statement (fuel : Nat) (uses : Uses) (table : List String) : Reader (Uses × List String) := do
  spaces
  match ← peek with
  | none | some '#' | some '\n' | some '\r' => return (uses, table)
  | some '[' =>
    literal '['
    let isItem ← taken ['[']
    spaces
    let table ← path fuel
    literal ']'
    if isItem then literal ']'
    let uses ← lift (if isItem then openItem uses table else openTable uses table)
    return (uses, table)
  | _ =>
    let keys ← path fuel
    literal '='
    spaces
    let given ← value nestingLimit fuel
    return (← lift (assign uses table keys given), table)

def lines : Nat → Uses → List String → Reader Uses
  | 0, _, _ => failure
  | fuel + 1, uses, table => do
    let (uses, table) ← statement (2 * fuel + 4) uses table
    spaces
    comment
    if ← newline then lines fuel uses table
    else
      ensure (← peek).isNone
      return uses

/-- A mark in front of the text that tells its encoding. -/
def dropMark : List Char → List Char
  | '\ufeff' :: rest => rest
  | text => text

/-- What a file gives for its outermost keys. Up to two encoding marks in front do not count. -/
def read? (text : String) : Option (List (String × Given)) := do
  let uses ← (lines (text.length + 1) [] []).whole (dropMark (dropMark text.toList))
  return uses.filterMap fun
    | ([name], .value given) => some (name, given)
    | ([name], _) => some (name, .compound)
    | _ => none

end Toml

end Setlist
