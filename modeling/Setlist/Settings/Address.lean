import Setlist.Text.Utf8

/-! # Addresses

The address of a database is its name, and after a question mark how it is to be opened. Both
may hold bytes that are written as a percent sign and two hexadecimal digits.
-/

namespace Setlist

namespace Text

def isControl (c : Char) : Bool := c.toNat < 32 || (127 ≤ c.toNat && c.toNat < 160)

def escaped (c : Char) : String :=
  if c = '"' then "\\\""
  else if c = '\\' then "\\\\"
  else if c = '\n' then "\\n"
  else if c = '\r' then "\\r"
  else if c = '\t' then "\\t"
  else if c.toNat = 0 then "\\0"
  else if isControl c then "\\u\x7b" ++ String.ofList (Nat.toDigits 16 c.toNat) ++ "\x7d"
  else c.toString

/-- A text between quotes, with a backslash before what cannot stand there itself. -/
def quoted (text : String) : String := "\"" ++ String.join (text.toList.map escaped) ++ "\""

end Text

/-- Ways to open a database for which only some values are known. -/
inductive AddressOption
  | mode | cache | immutable
  deriving DecidableEq, Repr

def AddressOption.name : AddressOption → String
  | mode => "mode"
  | cache => "cache"
  | immutable => "immutable"

def AddressOption.values : AddressOption → List String
  | mode => ["ro", "rw", "rwc", "memory"]
  | cache => ["private", "shared"]
  | immutable => ["true", "1", "false", "0"]

inductive AddressFault
  | malformedName (fault : Text.Utf8.Fault)
  | unknownOption (name : String)
  | unknownValue (setting : AddressOption) (value : String)
  deriving DecidableEq, Repr

def AddressFault.message : AddressFault → String
  | malformedName fault => fault.message
  | unknownOption name => "unknown query parameter `" ++ name ++ "` while parsing connection URL"
  | unknownValue setting value =>
    "unknown value " ++ Text.quoted value ++ " for `" ++ setting.name ++ "`"

/-- How a database is opened: by its name, and through a named file system if one is given. -/
structure Address where
  name : String
  inMemory : Bool
  fileSystem : Option String
  deriving DecidableEq, Repr

namespace Address

def hexDigit? (byte : Nat) : Option Nat :=
  if 48 ≤ byte ∧ byte ≤ 57 then some (byte - 48)
  else if 65 ≤ byte ∧ byte ≤ 70 then some (byte - 55)
  else if 97 ≤ byte ∧ byte ≤ 102 then some (byte - 87)
  else none

/-- A percent sign without two digits stands for itself. -/
def percentDecoded : List Nat → List Nat
  | 37 :: high :: low :: rest =>
    match hexDigit? high, hexDigit? low with
    | some high, some low => (high * 16 + low) :: percentDecoded rest
    | _, _ => 37 :: percentDecoded (high :: low :: rest)
  | byte :: rest => byte :: percentDecoded rest
  | [] => []

def bytes (text : List Char) : List Nat := (String.ofList text).toUTF8.toList.map (·.toNat)

def without (mark : List Char) (text : List Char) : List Char :=
  if mark ≠ [] ∧ mark <+: text then without mark (text.drop mark.length) else text
termination_by text.length
decreasing_by
  rename_i h
  have := List.length_pos_iff.mpr h.1
  have := h.2.length_le
  simp only [List.length_drop]
  omega

/-- A text up to a mark, and the text after it if the mark is there. -/
def cut (mark : Char) (text : List Char) : List Char × Option (List Char) :=
  match text.dropWhile (· != mark) with
  | [] => (text, none)
  | _ :: rest => (text.takeWhile (· != mark), some rest)

/-- A name or value of an option; a plus sign stands for a space. -/
def decoded (text : List Char) : String :=
  Text.Utf8.lossy (percentDecoded (bytes (text.map fun c => if c = '+' then ' ' else c)))

def pairs (text : List Char) : List (String × String) :=
  let fields := ((String.ofList text).splitOn "&").filter (!·.isEmpty)
  fields.map fun field =>
    let (name, value) := cut '=' field.toList
    (decoded name, decoded (value.getD []))

def withOption (address : Address) : String × String → Except AddressFault Address
  | ("vfs", value) => .ok { address with fileSystem := some value }
  | (name, value) =>
    match [AddressOption.mode, .cache, .immutable].find? (·.name == name) with
    | none => .error (.unknownOption name)
    | some setting =>
      if !setting.values.contains value then .error (.unknownValue setting value)
      else if value = "memory" then .ok { address with inMemory := true }
      else .ok address

def ofText (text : String) : Except AddressFault Address := do
  let text := without "sqlite:".toList (without "sqlite://".toList text.toList)
  let (name, options) := cut '?' text
  let address ← if name = ":memory:".toList then pure ⟨":memory:", true, none⟩
    else match Text.Utf8.text (percentDecoded (bytes name)) with
      | .ok name => pure ⟨name, false, none⟩
      | .error fault => throw (.malformedName fault)
  (pairs (options.getD [])).foldlM withOption address

end Address

end Setlist
