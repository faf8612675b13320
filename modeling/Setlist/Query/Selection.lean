import Setlist.Catalogue.Error
import Setlist.Catalogue.Tables
import Setlist.Query.Condition
import Setlist.Query.Order
import Setlist.Rule.Expression

/-! # Selections

A selection draws rows from the songs and the relations joined to them, keeps those that
satisfy some group of conditions, and orders them. It can be written as a query or run.
-/

namespace Setlist

structure Row where
  song : SongRow
  album : Option AlbumRow
  artist : Option ArtistRow
  interaction : Option Interaction
  deriving DecidableEq, Repr

namespace Row

def ofSong (song : SongRow) : Row := ⟨song, none, none, none⟩

def withAlbums (albums : List AlbumRow) (row : Row) : List Row :=
  (albums.filter (·.id == row.song.albumId)).map fun album => { row with album := some album }

def withArtists (artists : List ArtistRow) (row : Row) : List Row :=
  (artists.filter (·.id == row.song.artistId)).map fun artist =>
    { row with artist := some artist }

/-- One row for each interaction of the user with the song, or the row itself. -/
def withInteractions (interactions : List Interaction) (user : Int) (row : Row) : List Row :=
  match interactions.filter fun i => i.songId == row.song.id && i.userId == user with
  | [] => [row]
  | found => found.map fun interaction => { row with interaction := some interaction }

def cell (row : Row) : Field → Cell
  | .title => some (.text row.song.titleFolded)
  | .length => some (.real row.song.length)
  | .track => row.song.track.map .integer
  | .disc => some (.integer row.song.disc)
  | .createdAt => some (.text row.song.createdAt)
  | .updatedAt => some (.text row.song.updatedAt)
  | .albumName => row.album.map fun album => .text album.nameFolded
  | .artistName => row.artist.map fun artist => .text artist.nameFolded
  | .playCount => some (.integer ((row.interaction.map (·.playCount)).getD 0))
  | .playedAt => row.interaction.map fun interaction => .text interaction.updatedAt

/-- By the field, then by id. -/
def compare (order : SortOrder) (a b : Row) : Ordering :=
  let byField := Cell.compare (a.cell order.field) (b.cell order.field)
  let directed := match order.direction with
    | .ascending => byField
    | .descending => byField.swap
  directed.then (Ord.compare a.song.id b.song.id)

/-- The song as it is handed out, if its album and artist are joined. -/
def toSong? (row : Row) : Option Song :=
  match row.album, row.artist with
  | some album, some artist =>
    some ⟨row.song.id, row.song.title, row.song.length, row.song.track, row.song.disc,
      row.song.path, row.song.albumId, album.name, row.song.artistId, artist.name,
      (row.interaction.map (·.playCount)).getD 0, (row.interaction.map (·.liked)).getD false,
      row.song.createdAt, row.song.updatedAt⟩
  | _, _ => none

end Row

/-- The songs with the relations of a set joined, as seen by a user. -/
def Catalogue.joined (c : Catalogue) (joins : Joins) (user : Int) : List Row :=
  let songs := c.songs.map Row.ofSong
  let songs := if joins.album then songs.flatMap (Row.withAlbums c.albums) else songs
  let songs := if joins.artist then songs.flatMap (Row.withArtists c.artists) else songs
  if joins.interaction then songs.flatMap (Row.withInteractions c.interactions user) else songs

/-- Groups are alternatives; an empty one, or none at all, admits no row. -/
structure Selection where
  joins : Joins
  user : Int
  groups : List (List Condition)
  order : SortOrder

namespace Selection

/-- The matches of an expression at an instant, read with at least the relations it needs. -/
def ofExpression (e : Expression) (joins : Joins) (order : SortOrder) (now : Instant) :
    Selection :=
  ⟨joins, e.user, e.groups.map fun group => group.map (·.condition now), order⟩

def joinSql (user : Int) : Relation → Sql
  | .album => [.text " INNER JOIN albums al ON al.id = s.album_id"]
  | .artist => [.text " INNER JOIN artists ar ON ar.id = s.artist_id"]
  | .interaction =>
    [.text " LEFT JOIN interactions i ON i.song_id = s.id AND i.user_id = ",
      .bind (.integer user)]

def fromSql (s : Selection) : Sql := .text " FROM songs s" :: s.joins.toList.flatMap (joinSql s.user)

def groupSql : List Condition → Sql
  | [] => [.text "0"]
  | group => .text "(" :: (Sql.separated " AND " (group.map (·.sql)) ++ [.text ")"])

def whereSql (s : Selection) : Sql :=
  .text " WHERE " ::
    match s.groups with
    | [] => [.text "0"]
    | groups => Sql.separated " OR " (groups.map groupSql)

def orderSql (s : Selection) : Sql :=
  [.text (" ORDER BY " ++ s.order.field.column ++ " " ++ s.order.direction.keyword ++ ", s.id ASC")]

def sql (s : Selection) : Sql := .text "SELECT s.id" :: (s.fromSql ++ s.whereSql ++ s.orderSql)

/-- The depth at which the database still reads a query. -/
def greatestDepth : Nat := 1000

/-- The most values that a query can bind. -/
def mostValues : Nat := 32766

/-- What has been read of a query: the values it binds so far, and the depth of the operands
that are joined so far. -/
structure Reading where
  values : Nat
  depth : Nat
  deriving DecidableEq, Repr

/-- A reading goes on only within the limits of the database. -/
def Reading.checked (reading : Reading) : Except DatabaseFault Reading :=
  if mostValues < reading.values then .error .tooManyValues
  else if greatestDepth < reading.depth then .error .queryTooDeep
  else .ok reading

/-- Reads operands that are joined from the left, after a number of values; a constant stands
for none. -/
def readChain {α : Type} (read : Nat → α → Except DatabaseFault Reading) (values : Nat) :
    List α → Except DatabaseFault Reading
  | [] => .ok ⟨values, 1⟩
  | first :: rest => do
    rest.foldlM (fun reading operand => do
      let next ← read reading.values operand
      Reading.checked ⟨next.values, max reading.depth next.depth + 1⟩) (← read values first)

def readCondition (values : Nat) (condition : Condition) : Except DatabaseFault Reading :=
  Reading.checked ⟨values + condition.sql.arguments.length, condition.depth⟩

/-- The values that say which page is listed: its size, and the songs before it. -/
def pageValues : Option PageRequest → Nat
  | none => 0
  | some _ => 2

/-- Reads the query from left to right, and the values of its page, if it lists one, at the end.
Each relation adds the terms of its join to the depth. -/
def read (s : Selection) (page : Option PageRequest) : Except DatabaseFault Reading := do
  let reading ← readChain (readChain readCondition) s.fromSql.arguments.length s.groups
  Reading.checked ⟨reading.values + pageValues page, reading.depth + s.joins.toList.length⟩

/-- A nonempty conjunction; an empty group is false. -/
def groupTruth (row : Row) : List Condition → Truth
  | [] => some false
  | [condition] => condition.truth row.cell
  | condition :: next :: rest =>
    (condition.truth row.cell).and (groupTruth row (next :: rest))

def truth (s : Selection) (row : Row) : Truth :=
  s.groups.foldr (fun group rest => (groupTruth row group).or rest) (some false)

def admits (s : Selection) (row : Row) : Bool := s.truth row == some true

def rows (s : Selection) (c : Catalogue) : List Row :=
  (c.joined s.joins s.user).filter s.admits

def count (s : Selection) (c : Catalogue) : Nat := (s.rows c).length

def sorted (s : Selection) (c : Catalogue) : List Row :=
  (s.rows c).mergeSort fun a b => a.compare s.order b != .gt

def ids (s : Selection) (c : Catalogue) : List String := (s.sorted c).map (·.song.id)

end Selection

end Setlist
