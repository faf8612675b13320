import Setlist.Calendar.Stored
import Setlist.Query.Sql
import Setlist.Rule.Compile

/-! # Conditions on a row

A predicate becomes a condition on one field. A condition has a text, for the database, and
a truth value, which is unknown where null stands in a comparison.
-/

namespace Setlist

abbrev Truth := Option Bool

namespace Truth

def not (a : Truth) : Truth := a.map (!·)

def or : Truth → Truth → Truth
  | some true, _ => some true
  | _, some true => some true
  | some false, some false => some false
  | _, _ => none

def and : Truth → Truth → Truth
  | some false, _ => some false
  | _, some false => some false
  | some true, some true => some true
  | _, _ => none

end Truth

namespace Field

/-- Where a query reads a field. Texts are read in their folded form, and a song that was
never played has no plays. -/
def column : Field → String
  | title => "s.title_folded"
  | length => "s.length"
  | track => "s.track"
  | disc => "s.disc"
  | createdAt => "s.created_at"
  | updatedAt => "s.updated_at"
  | albumName => "al.name_folded"
  | artistName => "ar.name_folded"
  | playCount => "COALESCE(i.play_count, 0)"
  | playedAt => "i.updated_at"

/-- A column is a name under its relation; the plays stand under a call as well. -/
def depth : Field → Nat
  | playCount => 3
  | _ => 2

end Field

/-- Values are in the form in which they are bound. -/
inductive Condition
  | never
  | equal (field : Field) (value : Datum)
  | sameDay (field : Field) (value : Datum)
  | like (field : Field) (pattern : Datum)
  | notLike (field : Field) (pattern : Datum)
  | greater (field : Field) (value : Datum)
  | less (field : Field) (value : Datum)
  | between (field : Field) (low high : Datum)
  | within (field : Field) (low high : Datum)
  | outside (field : Field) (low high : Datum)
  | negation (condition : Condition)
  | absentOr (field : Field) (condition : Condition)
  deriving DecidableEq, Repr

namespace Condition

def sql : Condition → Sql
  | never => [.text "0"]
  | equal field value => [.text (field.column ++ " = "), .bind value]
  | sameDay field value =>
    [.text ("date(" ++ field.column ++ ") = date("), .bind value, .text ")"]
  | like field pattern =>
    [.text (field.column ++ " LIKE "), .bind pattern, .text " ESCAPE '\\'"]
  | notLike field pattern =>
    [.text (field.column ++ " NOT LIKE "), .bind pattern, .text " ESCAPE '\\'"]
  | greater field value => [.text (field.column ++ " > "), .bind value]
  | less field value => [.text (field.column ++ " < "), .bind value]
  | between field low high =>
    [.text (field.column ++ " BETWEEN "), .bind low, .text " AND ", .bind high]
  | within field low high =>
    [.text ("(" ++ field.column ++ " >= "), .bind low,
      .text (" AND " ++ field.column ++ " <= "), .bind high, .text ")"]
  | outside field low high =>
    [.text ("(" ++ field.column ++ " < "), .bind low,
      .text (" OR " ++ field.column ++ " > "), .bind high, .text ")"]
  | negation condition => .text "NOT (" :: (condition.sql ++ [.text ")"])
  | absentOr field condition =>
    .text ("(" ++ field.column ++ " IS NULL OR ") :: (condition.sql ++ [.text ")"])

/-- The fields that the text of a condition mentions. -/
def fields : Condition → List Field
  | never => []
  | equal field _ | sameDay field _ | like field _ | notLike field _ | greater field _
  | less field _ | between field _ _ => [field]
  | within field _ _ | outside field _ _ => [field, field]
  | negation condition => condition.fields
  | absentOr field condition => field :: condition.fields

/-- The longest chain of operators and operands in the condition's text. -/
def depth : Condition → Nat
  | never => 1
  | equal field _ | greater field _ | less field _ | like field _ | between field _ _ =>
    field.depth + 1
  | sameDay field _ | notLike field _ | within field _ _ | outside field _ _ => field.depth + 2
  | negation condition => condition.depth + 1
  | absentOr field condition => max (field.depth + 1) condition.depth + 1

/-- How a value compares with a bound one passes a test; unknown for null. -/
def compares (test : Ordering → Bool) (cell : Cell) (value : Datum) : Truth :=
  cell.map fun stored => test (stored.compare value)

def day : Datum → Cell
  | .text value => (Timestamp.day? value).map .text
  | _ => none

/-- Only texts match patterns. -/
def fits (cell : Cell) (pattern : Datum) : Truth :=
  cell.map fun stored =>
    match stored, pattern with
    | .text value, .text pattern => Text.LikePattern.admits pattern value
    | _, _ => false

def truth (read : Field → Cell) : Condition → Truth
  | never => some false
  | equal field value => compares (· == .eq) (read field) value
  | sameDay field value =>
    match (read field).bind day, day value with
    | some stored, some bound => some (stored == bound)
    | _, _ => none
  | like field pattern => fits (read field) pattern
  | notLike field pattern => (fits (read field) pattern).not
  | greater field value => compares (· == .gt) (read field) value
  | less field value => compares (· == .lt) (read field) value
  | between field low high =>
    (compares (· != .lt) (read field) low).and (compares (· != .gt) (read field) high)
  | within field low high =>
    (compares (· != .lt) (read field) low).and (compares (· != .gt) (read field) high)
  | outside field low high =>
    (compares (· == .lt) (read field) low).or (compares (· == .gt) (read field) high)
  | negation condition => (condition.truth read).not
  | absentOr field condition =>
    Truth.or (some (read field).isNone) (condition.truth read)

/-- The longest pattern, in bytes, that the database matches. -/
def longestPattern : Nat := 50000

def isOverlong : Datum → Bool
  | .text pattern => longestPattern < pattern.utf8ByteSize
  | _ => false

/-- Testing the condition on a row runs into a pattern that is too long. -/
def fails (read : Field → Cell) : Condition → Bool
  | like _ pattern | notLike _ pattern => isOverlong pattern
  | negation condition => condition.fails read
  | absentOr field condition => (read field).isSome && condition.fails read
  | _ => false

end Condition

namespace Value

/-- The form in which a value is bound. Texts are folded, a pattern with its wildcards. -/
def datum : Value → Datum
  | text value => .text (Text.fold value)
  | pattern value => .text (Text.fold value.text)
  | number value => .real value
  | instant value => .text (Timestamp.format value)
  | window millis => .integer (millis.tdiv 1000)

/-- The start of a window that ends now; no window is empty, and none starts before time. -/
def windowStart (now : Instant) : Value → Instant
  | window millis => (now.before? millis).getD .earliest
  | _ => now

end Value

namespace Predicate

def equality (field : Field) (value : Value) : Condition :=
  match field.type with
  | .date => .sameDay field value.datum
  | .text | .number => .equal field value.datum

def windowBounds (now : Instant) (value : Value) : Datum × Datum :=
  (.text (Timestamp.format (value.windowStart now)), .text (Timestamp.format now))

/-- The condition that the operator makes of its values, absence aside. -/
def comparison (p : Predicate) (now : Instant) : Condition :=
  match p.operator, p.values with
  | .is, [value] => equality p.field value
  | .isNot, [value] => .negation (equality p.field value)
  | .contains, [value] | .beginsWith, [value] | .endsWith, [value] => .like p.field value.datum
  | .notContain, [value] => .notLike p.field value.datum
  | .isGreaterThan, [value] => .greater p.field value.datum
  | .isLessThan, [value] => .less p.field value.datum
  | .isBetween, [low, high] => .between p.field low.datum high.datum
  | .inLast, [value] =>
    let (start, finish) := windowBounds now value
    .within p.field start finish
  | .notInLast, [value] =>
    let (start, finish) := windowBounds now value
    .outside p.field start finish
  | _, _ => .never

/-- A predicate with a wrong number of values matches nothing. -/
def condition (p : Predicate) (now : Instant) : Condition :=
  if p.values.length ≠ p.operator.arity then .never
  else if p.operator.isNegated then .absentOr p.field (p.comparison now)
  else p.comparison now

end Predicate

end Setlist
