import Setlist.Calendar.Timestamp
import Setlist.Json.Writer
import Setlist.Rule.Operator

/-! # Rule values

What a rule's raw values are read as, and the ways in which a rule can be at fault.
-/

namespace Setlist

/-- A window is a look-back span in milliseconds. -/
inductive Value
  | text (value : String)
  | pattern (value : Text.LikePattern)
  | number (value : Binary64)
  | instant (value : Instant)
  | window (millis : Int)
  deriving DecidableEq, Repr

namespace Value

/-- The value as it is shown in a message; a window in whole seconds. -/
def describe : Value → String
  | text value => value
  | pattern value => value.text
  | number value => value.display
  | instant value => Timestamp.format value
  | window millis => toString (millis.tdiv 1000) ++ "s"

/-- Values compare only within one kind, and patterns never. -/
def compare? : Value → Value → Option Ordering
  | number a, number b => a.compare? b
  | instant a, instant b => some (a.compare b)
  | text a, text b => some (compare a b)
  | window a, window b => some (compare a b)
  | _, _ => none

end Value

inductive Expected
  | value (type : ValueType)
  | count
  deriving DecidableEq, Repr

def Expected.name : Expected → String
  | value type => type.name
  | count => "non-negative count"

inductive RuleError
  | unknownField (name : String)
  | unknownOperator (name : String)
  | incompatible (operator : Operator) (field : Field)
  | wrongArity (operator : Operator) (given : Nat)
  | descendingRange (low high : Value)
  | unreadable (value : Json) (expected : Expected)
  | unsortable (field : Field)

def RuleError.message : RuleError → String
  | unknownField name => "Unknown field: " ++ name
  | unknownOperator name => "Unknown operator: " ++ name
  | incompatible operator field =>
    "Operator " ++ operator.name ++ " cannot be applied to " ++ field.type.name ++ " field " ++
      field.name
  | wrongArity operator given =>
    "Operator " ++ operator.name ++ " takes " ++ toString operator.arity ++ " value(s), got " ++
      toString given
  | descendingRange low high =>
    "Range lower bound " ++ low.describe ++ " is greater than upper bound " ++ high.describe
  | unreadable value expected =>
    "Value " ++ value.text ++ " is not a valid " ++ expected.name
  | unsortable field => "Cannot sort by field: " ++ field.name

namespace Value

/-- A number counts as the text it is written as. -/
def readText : Json → Except RuleError String
  | .string value => .ok value
  | .number value => .ok value.text
  | raw => .error (.unreadable raw (.value .text))

/-- A JSON number, or a text that reads as one; only finite numbers count. -/
def number? : Json → Option Binary64
  | .number value => some value.toBinary64
  | .string value => Binary64.read? (Text.trim value)
  | _ => none

def readNumber (raw : Json) : Except RuleError Binary64 :=
  match number? raw with
  | some value =>
    if value.isFinite then .ok value else .error (.unreadable raw (.value .number))
  | none => .error (.unreadable raw (.value .number))

def readInstant (raw : Json) : Except RuleError Instant :=
  let instant? := match raw with
    | .string value => Timestamp.read? value
    | _ => none
  match instant? with
  | some value => .ok value
  | none => .error (.unreadable raw (.value .date))

def read (type : ValueType) (raw : Json) : Except RuleError Value :=
  match type with
  | .text => (readText raw).map .text
  | .number => (readNumber raw).map .number
  | .date => (readInstant raw).map .instant

/-- Reads a raw value as a count of units, and makes a window of it. -/
def readWindow (unit : TimeUnit) (raw : Json) : Except RuleError Value := do
  let count ← readNumber raw
  match unit.duration count with
  | some millis => .ok (.window millis)
  | none => .error (.unreadable raw .count)

end Value

end Setlist
