import Setlist.Json.Reader
import Setlist.Rule.Compile

/-! # Sorting and paging

How a caller asks for the songs that match: an order by one field, and a page of it.
-/

namespace Setlist

inductive Direction
  | ascending | descending
  deriving DecidableEq, Repr

namespace Direction

def name : Direction → String
  | ascending => "asc"
  | descending => "desc"

def keyword : Direction → String
  | ascending => "ASC"
  | descending => "DESC"

def find? : String → Option Direction
  | "asc" => some ascending
  | "desc" => some descending
  | _ => none

def ofJson? : Json → Option Direction := Json.choice? find?

def toJson (d : Direction) : Json := .string d.name

def format : Json.Format Direction := ⟨.whole, ofJson?, toJson⟩

end Direction

/-- Songs equal in the field follow one another by id. -/
structure SortOrder where
  field : Field
  direction : Direction
  deriving DecidableEq, Repr

namespace SortOrder

def byTitle : SortOrder := ⟨.title, .ascending⟩

def byName (name : String) (direction : Direction) : Except RuleError SortOrder := do
  let field ← Field.resolve name
  if !field.isSortable then throw (.unsortable field)
  return ⟨field, direction⟩

end SortOrder

/-- A page by its number, the first being one, and its size. -/
structure PageRequest where
  page : Nat
  perPage : Nat
  deriving DecidableEq, Repr

namespace PageRequest

/-- Both numbers are at least one. -/
def of (page perPage : Nat) : PageRequest := ⟨max page 1, max perPage 1⟩

def standard : PageRequest := of 1 50

def clamped (request : PageRequest) (most : Nat) : PageRequest :=
  of request.page (min request.perPage most)

def limit (request : PageRequest) : Nat := request.perPage

/-- The songs on earlier pages; the count saturates. -/
def offset (request : PageRequest) : Nat :=
  min ((request.page - 1) * request.perPage) (2 ^ 63 - 1)

open Json

def slots : List Slot := [slot "page", slot "per_page"]

def ofJson? (json : Json) : Option PageRequest := do
  let [page, perPage] ← gather slots json | none
  return ⟨← required nat32? page, ← required nat32? perPage⟩

def toJson (request : PageRequest) : Json :=
  .object [("page", ofNat request.page), ("per_page", ofNat request.perPage)]

def format : Format PageRequest := ⟨.flat slots, ofJson?, toJson⟩

end PageRequest

end Setlist
