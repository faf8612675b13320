import Setlist.Json.Reader

/-! # Stored rules

Rules as a client stores them: nothing here is checked beyond the shape of the record.
-/

namespace Setlist

/-- A field by name, with hints for its display. -/
structure FieldDescriptor where
  name : String
  type : Option String
  label : Option String
  unit : Option String
  deriving DecidableEq, Repr

inductive FieldRef
  | named (name : String)
  | described (descriptor : FieldDescriptor)
  deriving DecidableEq, Repr

def FieldRef.fieldName : FieldRef → String
  | named name => name
  | described descriptor => descriptor.name

structure RuleRecord where
  id : Option Int
  field : FieldRef
  operator : String
  values : List Json

structure GroupRecord where
  id : Option Int
  rules : List RuleRecord

open Json

namespace FieldDescriptor

def slots : List Slot :=
  [slot "name", ⟨"type", none, true⟩, ⟨"label", none, true⟩, ⟨"unit", none, true⟩]

def ofJson? (json : Json) : Option FieldDescriptor := do
  let [name, type, label, unit] ← gather slots json | none
  return ⟨← required string? name, ← optional string? type, ← optional string? label,
    ← optional string? unit⟩

def toJson (d : FieldDescriptor) : Json :=
  .object (("name", .string d.name) :: member? "type" .string d.type ++
    member? "label" .string d.label ++ member? "unit" .string d.unit)

def format : Format FieldDescriptor := ⟨.flat slots, ofJson?, toJson⟩

end FieldDescriptor

namespace FieldRef

def ofJson? : Json → Option FieldRef
  | .string name => some (.named name)
  | json => (FieldDescriptor.ofJson? json).map .described

def toJson : FieldRef → Json
  | named name => .string name
  | described descriptor => descriptor.toJson

end FieldRef

namespace RuleRecord

def slots : List Slot :=
  [⟨"id", none, true⟩, ⟨"field", some "model", false⟩, slot "operator",
    ⟨"values", some "value", true⟩]

def ofJson? (json : Json) : Option RuleRecord := do
  let [id, field, operator, values] ← gather slots json | none
  return ⟨← optional int64? id, ← required FieldRef.ofJson? field, ← required string? operator,
    ← defaulted [] (list? free?) values⟩

def toJson (r : RuleRecord) : Json :=
  .object (member? "id" ofInt r.id ++
    [("field", r.field.toJson), ("operator", .string r.operator), ("values", .array r.values)])

def format : Format RuleRecord := ⟨.flat slots, ofJson?, toJson⟩

end RuleRecord

namespace GroupRecord

def fields : List (Slot × Shape) :=
  [(⟨"id", none, true⟩, .whole), (⟨"rules", none, true⟩, .list RuleRecord.format.shape)]

def ofJson? (json : Json) : Option GroupRecord := do
  let [id, rules] ← gather (fields.map (·.1)) json | none
  return ⟨← optional int64? id, ← defaulted [] RuleRecord.format.list.ofJson? rules⟩

def toJson (g : GroupRecord) : Json :=
  .object (member? "id" ofInt g.id ++ [("rules", RuleRecord.format.list.toJson g.rules)])

def format : Format GroupRecord := ⟨.record fields, ofJson?, toJson⟩

def listFormat : Format (List GroupRecord) := format.list

end GroupRecord

end Setlist
