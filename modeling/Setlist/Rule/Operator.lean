import Setlist.Rule.Field
import Setlist.Text.Like

/-! # Rule operators

The comparisons a rule may make: the value types they apply to, how many values they take,
and whether those are values of the field or counts of its unit.
-/

namespace Setlist

inductive Operator
  | is | isNot | contains | notContain | beginsWith | endsWith
  | isGreaterThan | isLessThan | isBetween | inLast | notInLast
  deriving DecidableEq, Repr

inductive Operand
  | fieldValue | unitCount
  deriving DecidableEq, Repr

def Operand.name : Operand → String
  | fieldValue => "field_value"
  | unitCount => "unit_count"

namespace Operator

def all : List Operator :=
  [is, isNot, contains, notContain, beginsWith, endsWith, isGreaterThan, isLessThan, isBetween,
    inLast, notInLast]

def name : Operator → String
  | is => "is"
  | isNot => "isNot"
  | contains => "contains"
  | notContain => "notContain"
  | beginsWith => "beginsWith"
  | endsWith => "endsWith"
  | isGreaterThan => "isGreaterThan"
  | isLessThan => "isLessThan"
  | isBetween => "isBetween"
  | inLast => "inLast"
  | notInLast => "notInLast"

def types : Operator → List ValueType
  | is | isNot => [.text, .number, .date]
  | contains | notContain | beginsWith | endsWith => [.text]
  | isGreaterThan | isLessThan | isBetween => [.number, .date]
  | inLast | notInLast => [.date]

def arity : Operator → Nat
  | isBetween => 2
  | _ => 1

def operand : Operator → Operand
  | inLast | notInLast => .unitCount
  | _ => .fieldValue

/-- Negated operators also match songs on which the field is absent. -/
def isNegated : Operator → Bool
  | isNot | notContain | notInLast => true
  | _ => false

/-- Where an operator on substrings looks for its literal. -/
def matchKind : Operator → Option Text.MatchKind
  | contains | notContain => some .contains
  | beginsWith => some .beginning
  | endsWith => some .ending
  | _ => none

/-- A count of units needs a field that has a unit. -/
def accepts (operator : Operator) (field : Field) : Bool :=
  operator.types.contains field.type &&
  (operator.operand == .fieldValue || field.unit.isSome)

def find? (name : String) : Option Operator := all.find? (·.name == name)

end Operator

end Setlist
