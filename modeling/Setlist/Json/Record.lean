import Setlist.Json.Value

/-! # Records in JSON

A record is an object with known keys, or the array of its fields in order. Unknown keys are
ignored; a key given twice, under one name or two, is a fault.
-/

namespace Setlist

namespace Json

/-- A field of a record. The array form may stop before a field that `mayEnd` there. -/
structure Slot where
  key : String
  otherKey : Option String
  mayEnd : Bool

def Slot.isNamed (slot : Slot) (key : String) : Bool :=
  slot.key == key || slot.otherKey == some key

/-- A field known under one key, present in every array form. -/
def slot (key : String) : Slot := ⟨key, none, false⟩

def given (members : List (String × Json)) (slot : Slot) : Option (Option Json) :=
  match members.filter (slot.isNamed ·.1) with
  | [] => some none
  | [(_, value)] => some (some value)
  | _ => none

def gather (slots : List Slot) : Json → Option (List (Option Json))
  | object members => slots.mapM (given members)
  | array items =>
    if items.length ≤ slots.length ∧ (slots.drop items.length).all (·.mayEnd) then
      some (items.map some ++ List.replicate (slots.length - items.length) none)
    else none
  | _ => none

def required {α : Type} (read : Json → Option α) : Option Json → Option α
  | some value => read value
  | none => none

def optional {α : Type} (read : Json → Option α) : Option Json → Option (Option α)
  | none | some null => some none
  | some value => (read value).map some

/-- A field that takes a value of its own when it is not given. -/
def defaulted {α : Type} (default : α) (read : Json → Option α) : Option Json → Option α
  | some value => read value
  | none => some default

def string? : Json → Option String
  | string value => some value
  | _ => none

def bool? : Json → Option Bool
  | bool value => some value
  | _ => none

def integer? (least greatest : Int) : Json → Option Int
  | number (.integer value) => if least ≤ value ∧ value ≤ greatest then some value else none
  | _ => none

def int64? : Json → Option Int := integer? (-2 ^ 63) (2 ^ 63 - 1)

def int32? : Json → Option Int := integer? (-2 ^ 31) (2 ^ 31 - 1)

def nat32? (json : Json) : Option Nat := (integer? 0 (2 ^ 32 - 1) json).map Int.toNat

def nat64? (json : Json) : Option Nat := (integer? 0 (2 ^ 64 - 1) json).map Int.toNat

def real? : Json → Option Binary64
  | number value => some value.toBinary64
  | _ => none

def list? {α : Type} (read : Json → Option α) : Json → Option (List α)
  | array items => items.mapM read
  | _ => none

/-- A free-form value, its object members ordered. -/
def free? (json : Json) : Option Json := some json.canonical

def ofInt (value : Int) : Json := number (.integer value)

def ofNat (value : Nat) : Json := ofInt value

def ofReal (value : Binary64) : Json := number (.real value)

/-- An absent value is written as null. -/
def orNull {α : Type} (write : α → Json) : Option α → Json
  | some value => write value
  | none => null

/-- A member that is left out when its value is absent. -/
def member? {α : Type} (key : String) (write : α → Json) : Option α → List (String × Json)
  | some value => [(key, write value)]
  | none => []

/-- A choice among names, given as a name or as an object with a null under the name. -/
def choice? {α : Type} (find : String → Option α) : Json → Option α
  | string name => find name
  | object [(name, null)] => find name
  | _ => none

end Json

end Setlist
