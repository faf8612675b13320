import Setlist.Rule.Record
import Setlist.Rule.Value

/-! # Compiling a rule

A stored rule is checked in a fixed order, its field first, then the operator, the number of
values, their fit and the range; then each value is read. The first fault is reported.
-/

namespace Setlist

/-- A rule whose field, operator and number of values are right. -/
structure Rule where
  id : Option Int
  field : Field
  operator : Operator
  values : List Json

structure Predicate where
  field : Field
  operator : Operator
  values : List Value
  joins : Joins
  deriving DecidableEq, Repr

namespace Field

def resolve (name : String) : Except RuleError Field :=
  match find? name with
  | some field => .ok field
  | none => .error (.unknownField (Text.trim name))

end Field

namespace Operator

def resolve (name : String) : Except RuleError Operator :=
  match find? name with
  | some operator => .ok operator
  | none => .error (.unknownOperator name)

end Operator

namespace Rule

/-- The two ends of a range are read as values of the field and must not descend. -/
def checkRange (field : Field) (low high : Json) : Except RuleError Unit := do
  let low ← Value.read field.type low
  let high ← Value.read field.type high
  if low.compare? high = some .gt then throw (.descendingRange low high)

/-- Resolves the names of a stored rule and checks its shape. -/
def ofRecord (record : RuleRecord) : Except RuleError Rule := do
  let field ← Field.resolve record.field.fieldName
  let operator ← Operator.resolve record.operator
  if record.values.length ≠ operator.arity then
    throw (.wrongArity operator record.values.length)
  if !operator.accepts field then
    throw (.incompatible operator field)
  if operator = .isBetween then
    match record.values with
    | [low, high] => checkRange field low high
    | _ => pure ()
  return ⟨record.id, field, operator, record.values⟩

/-- Reads one value as the operator needs it. -/
def compileValue (field : Field) (operator : Operator) (raw : Json) : Except RuleError Value :=
  match operator.operand with
  | .unitCount =>
    match field.unit with
    | some unit => Value.readWindow unit raw
    | none => .error (.incompatible operator field)
  | .fieldValue =>
    match operator.matchKind with
    | some kind => (Value.readText raw).map fun literal => .pattern (.ofLiteral kind literal)
    | none => Value.read field.type raw

def compile (rule : Rule) : Except RuleError Predicate := do
  let values ← rule.values.mapM (compileValue rule.field rule.operator)
  return ⟨rule.field, rule.operator, values, .ofOption rule.field.relation⟩

end Rule

def RuleRecord.compile (record : RuleRecord) : Except RuleError Predicate := do
  (← Rule.ofRecord record).compile

end Setlist
