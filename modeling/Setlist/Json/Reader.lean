import Setlist.Json.Outline
import Setlist.Json.Record
import Setlist.Json.Writer

/-! # Reading JSON

A shape says which parts of a text are wanted. The unknown members of a record are skipped:
they must keep to the grammar and no more, whereas everything that is wanted must have a
value and may not lie too deep.
-/

namespace Setlist

namespace Json

/-- Arrays and objects within one another, the outermost included. -/
def depthLimit : Nat := 127

/-- What is wanted of a value: all of it, or of an array or an object what its parts are
wanted for. -/
inductive Shape
  | whole
  | list (item : Shape)
  | record (fields : List (Slot × Shape))

namespace Shape

def flat (slots : List Slot) : Shape := .record (slots.map (·, .whole))

def leading : Shape → List Shape
  | record fields => fields.map (·.2)
  | _ => []

def trailing : Shape → Shape
  | list item => item
  | _ => whole

/-- The shape of the member with a key, if it is wanted. -/
def member? : Shape → String → Option Shape
  | record fields, key => (fields.find? (·.1.isNamed key)).map (·.2)
  | _, _ => some whole

end Shape

namespace Outline

mutual

/-- The wanted part of a value, with room for so many arrays and objects within one another. -/
def read? (room : Nat) (shape : Shape) : Outline → Option Json
  | scalar value => value
  | array items =>
    if room = 0 then none
    else (readItems? (room - 1) shape.leading shape.trailing items).map Json.array
  | object members =>
    if room = 0 then none else (readMembers? (room - 1) shape members).map Json.object

def readItems? (room : Nat) (leading : List Shape) (trailing : Shape) :
    List Outline → Option (List Json)
  | [] => some []
  | item :: rest => do
    let value ← read? room (leading.headD trailing) item
    let values ← readItems? room leading.tail trailing rest
    return value :: values

def readMembers? (room : Nat) (shape : Shape) :
    List (Option String × Outline) → Option (List (String × Json))
  | [] => some []
  | (none, _) :: _ => none
  | (some key, outline) :: rest =>
    match shape.member? key with
    | none => readMembers? room shape rest
    | some inner => do
      let value ← read? room inner outline
      let values ← readMembers? room shape rest
      return (key, value) :: values

end

end Outline

/-- Reads what is wanted of a text. -/
def readAs? (shape : Shape) (text : String) : Option Json :=
  (Outline.ofText? text).bind (·.read? depthLimit shape)

/-- Reads a whole text as one value, its members as they are written. -/
def read? (text : String) : Option Json := readAs? .whole text

/-- How one kind of value stands in JSON. -/
structure Format (α : Type) where
  shape : Shape
  ofJson? : Json → Option α
  toJson : α → Json

namespace Format

variable {α : Type}

def ofText? (format : Format α) (text : String) : Option α :=
  (readAs? format.shape text).bind format.ofJson?

def text (format : Format α) (value : α) : String := (format.toJson value).text

def list (format : Format α) : Format (List α) :=
  ⟨.list format.shape, list? format.ofJson?, fun values => .array (values.map format.toJson)⟩

end Format

end Json

end Setlist
