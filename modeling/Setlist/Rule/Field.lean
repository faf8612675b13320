import Setlist.Text.Reader

/-! # Rule fields

The properties of a song that a rule may ask about, with their value types, the units of
the counts they take, and the relations they are read from.
-/

namespace Setlist

inductive ValueType
  | text | number | date
  deriving DecidableEq, Repr

def ValueType.name : ValueType → String
  | text => "text"
  | number => "number"
  | date => "date"

inductive TimeUnit
  | seconds | days
  deriving DecidableEq, Repr

namespace TimeUnit

def name : TimeUnit → String
  | seconds => "seconds"
  | days => "days"

def length : TimeUnit → Int
  | seconds => 1
  | days => 86400

/-- The longest span, in milliseconds. -/
def longest : Int := 2 ^ 63 - 1

/-- A nonnegative count of units in whole milliseconds, a half rounded up. The product is
rounded to a binary number at each step; one past the longest span counts as the longest. -/
def duration (unit : TimeUnit) (count : Binary64) : Option Int :=
  if count.isFinite ∧ 0 ≤ count.units then
    let product := (count.mul (.ofInt unit.length)).mul (.ofInt 1000)
    if product.isFinite ∧ product.roundAway ≤ longest + 1 then
      some (min product.roundAway longest)
    else none
  else none

end TimeUnit

inductive Relation
  | album | artist | interaction
  deriving DecidableEq, Repr

def Relation.name : Relation → String
  | album => "album"
  | artist => "artist"
  | interaction => "interaction"

/-- A set of relations, listed in a fixed order. -/
structure Joins where
  album : Bool
  artist : Bool
  interaction : Bool
  deriving DecidableEq, Repr

namespace Joins

def none : Joins := ⟨false, false, false⟩

def has (joins : Joins) : Relation → Bool
  | .album => joins.album
  | .artist => joins.artist
  | .interaction => joins.interaction

def single : Relation → Joins
  | .album => ⟨true, false, false⟩
  | .artist => ⟨false, true, false⟩
  | .interaction => ⟨false, false, true⟩

def ofOption : Option Relation → Joins
  | some relation => single relation
  | Option.none => none

def union (a b : Joins) : Joins :=
  ⟨a.album || b.album, a.artist || b.artist, a.interaction || b.interaction⟩

def unions (all : List Joins) : Joins := all.foldr union none

def toList (joins : Joins) : List Relation :=
  [.album, .artist, .interaction].filter joins.has

end Joins

inductive Field
  | title | length | track | disc | createdAt | updatedAt
  | albumName | artistName | playCount | playedAt
  deriving DecidableEq, Repr

namespace Field

def all : List Field :=
  [title, length, track, disc, createdAt, updatedAt, albumName, artistName, playCount, playedAt]

def name : Field → String
  | title => "song.title"
  | length => "song.length"
  | track => "song.track"
  | disc => "song.disc"
  | createdAt => "song.created_at"
  | updatedAt => "song.updated_at"
  | albumName => "album.name"
  | artistName => "artist.name"
  | playCount => "interaction.play_count"
  | playedAt => "interaction.updated_at"

/-- A second name under which a field is known. -/
def alternateName : Field → Option String
  | title => some "title"
  | length => some "length"
  | track => some "track"
  | disc => some "disc"
  | createdAt => some "created_at"
  | updatedAt => some "updated_at"
  | albumName => none
  | artistName => none
  | playCount => some "interactions.play_count"
  | playedAt => some "interactions.updated_at"

def type : Field → ValueType
  | title => .text
  | length => .number
  | track => .number
  | disc => .number
  | createdAt => .date
  | updatedAt => .date
  | albumName => .text
  | artistName => .text
  | playCount => .number
  | playedAt => .date

def unit : Field → Option TimeUnit
  | length => some .seconds
  | createdAt => some .days
  | updatedAt => some .days
  | playedAt => some .days
  | _ => none

def relation : Field → Option Relation
  | albumName => some .album
  | artistName => some .artist
  | playCount => some .interaction
  | playedAt => some .interaction
  | _ => none

/-- The value differs from user to user. -/
def isUserScoped (field : Field) : Bool := field.relation == some .interaction

/-- Results may be ordered by any field. -/
def isSortable (_ : Field) : Bool := true

def isNamed (field : Field) (name : String) : Bool :=
  field.name == name || field.alternateName == some name

/-- Finds a field by either name, blanks around it ignored. -/
def find? (name : String) : Option Field := all.find? (·.isNamed (Text.trim name))

end Field

end Setlist
