import Setlist.Number.Binary64

/-! # Query text

A query is text with places for values. The values are kept apart from the text, in the
order of their places.
-/

namespace Setlist

/-- A stored or bound value other than null. -/
inductive Datum
  | integer (value : Int)
  | real (value : Binary64)
  | text (value : String)
  deriving DecidableEq, Repr

abbrev Cell := Option Datum

namespace Datum

/-- Numbers compare exactly and come before texts, which compare by code point. -/
def compare : Datum → Datum → Ordering
  | integer a, integer b => Ord.compare a b
  | integer a, real b => Ord.compare (a * 2 ^ 1074) b.units
  | real a, integer b => Ord.compare a.units (b * 2 ^ 1074)
  | real a, real b => Ord.compare a.units b.units
  | text a, text b => Ord.compare a b
  | text _, _ => .gt
  | _, text _ => .lt

end Datum

/-- Null comes before every value. -/
def Cell.compare : Cell → Cell → Ordering
  | none, none => .eq
  | none, some _ => .lt
  | some _, none => .gt
  | some a, some b => a.compare b

inductive Piece
  | text (text : String)
  | bind (value : Datum)
  deriving DecidableEq, Repr

abbrev Sql := List Piece

namespace Sql

def piece : Piece → String
  | .text text => text
  | .bind _ => "?"

/-- The query as text, a question mark in each place. -/
def text (sql : Sql) : String := String.join (sql.map piece)

/-- The values in the order of their places. -/
def arguments (sql : Sql) : List Datum :=
  sql.filterMap fun
    | .text _ => none
    | .bind value => some value

/-- Fragments with a text between each two. -/
def separated (separator : String) : List Sql → Sql
  | [] => []
  | [sql] => sql
  | sql :: next :: rest => sql ++ .text separator :: separated separator (next :: rest)

end Sql

end Setlist
