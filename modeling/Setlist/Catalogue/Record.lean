import Setlist.Rule.Record

/-! # Catalogue records

What the catalogue hands out and takes in, and how each is written as JSON. Times are texts
in the storage layout.
-/

namespace Setlist

structure User where
  id : Int
  name : String
  createdAt : String
  deriving DecidableEq, Repr

structure Artist where
  id : Int
  name : String
  createdAt : String
  updatedAt : String
  deriving DecidableEq, Repr

structure NewArtist where
  name : String
  deriving DecidableEq, Repr

structure Album where
  id : Int
  name : String
  artistId : Int
  artistName : Option String
  createdAt : String
  updatedAt : String
  deriving DecidableEq, Repr

structure NewAlbum where
  name : String
  artistId : Int
  deriving DecidableEq, Repr

/-- A song with the names of its album and artist, as one user sees it. -/
structure Song where
  id : String
  title : String
  length : Binary64
  track : Option Int
  disc : Int
  path : String
  albumId : Int
  albumName : String
  artistId : Int
  artistName : String
  playCount : Int
  liked : Bool
  createdAt : String
  updatedAt : String
  deriving DecidableEq, Repr

structure NewSong where
  title : String
  length : Binary64
  track : Option Int
  disc : Int
  path : String
  albumId : Int
  artistId : Int
  deriving DecidableEq, Repr

structure Interaction where
  userId : Int
  songId : String
  liked : Bool
  playCount : Int
  createdAt : String
  updatedAt : String
  deriving DecidableEq, Repr

/-- The first count that the database no longer keeps as an integer. -/
def Interaction.countLimit : Int := 2 ^ 63

structure Playlist where
  id : Int
  ownerId : Int
  name : String
  isSmart : Bool
  rules : List GroupRecord
  createdAt : String
  updatedAt : String

structure NewPlaylist where
  ownerId : Int
  name : String
  isSmart : Bool
  rules : List GroupRecord

/-- `total` counts the matching songs of all pages. -/
structure SongPage where
  songs : List Song
  total : Int
  page : Nat
  perPage : Nat
  deriving DecidableEq, Repr

open Json

namespace User

def slots : List Slot := [slot "id", slot "name", slot "created_at"]

def ofJson? (json : Json) : Option User := do
  let [id, name, createdAt] ← gather slots json | none
  return ⟨← required int64? id, ← required string? name, ← required string? createdAt⟩

def toJson (u : User) : Json :=
  .object [("id", ofInt u.id), ("name", .string u.name), ("created_at", .string u.createdAt)]

def format : Format User := ⟨.flat slots, ofJson?, toJson⟩

end User

namespace Artist

def slots : List Slot := [slot "id", slot "name", slot "created_at", slot "updated_at"]

def ofJson? (json : Json) : Option Artist := do
  let [id, name, createdAt, updatedAt] ← gather slots json | none
  return ⟨← required int64? id, ← required string? name, ← required string? createdAt,
    ← required string? updatedAt⟩

def toJson (a : Artist) : Json :=
  .object [("id", ofInt a.id), ("name", .string a.name), ("created_at", .string a.createdAt),
    ("updated_at", .string a.updatedAt)]

def format : Format Artist := ⟨.flat slots, ofJson?, toJson⟩

end Artist

namespace NewArtist

def slots : List Slot := [slot "name"]

def ofJson? (json : Json) : Option NewArtist := do
  let [name] ← gather slots json | none
  return ⟨← required string? name⟩

def toJson (a : NewArtist) : Json := .object [("name", .string a.name)]

def format : Format NewArtist := ⟨.flat slots, ofJson?, toJson⟩

end NewArtist

namespace Album

def slots : List Slot :=
  [slot "id", slot "name", slot "artist_id", slot "artist_name", slot "created_at",
    slot "updated_at"]

def ofJson? (json : Json) : Option Album := do
  let [id, name, artistId, artistName, createdAt, updatedAt] ← gather slots json | none
  return ⟨← required int64? id, ← required string? name, ← required int64? artistId,
    ← optional string? artistName, ← required string? createdAt, ← required string? updatedAt⟩

def toJson (a : Album) : Json :=
  .object [("id", ofInt a.id), ("name", .string a.name), ("artist_id", ofInt a.artistId),
    ("artist_name", orNull .string a.artistName), ("created_at", .string a.createdAt),
    ("updated_at", .string a.updatedAt)]

def format : Format Album := ⟨.flat slots, ofJson?, toJson⟩

end Album

namespace NewAlbum

def slots : List Slot := [slot "name", slot "artist_id"]

def ofJson? (json : Json) : Option NewAlbum := do
  let [name, artistId] ← gather slots json | none
  return ⟨← required string? name, ← required int64? artistId⟩

def toJson (a : NewAlbum) : Json :=
  .object [("name", .string a.name), ("artist_id", ofInt a.artistId)]

def format : Format NewAlbum := ⟨.flat slots, ofJson?, toJson⟩

end NewAlbum

namespace Song

def slots : List Slot :=
  [slot "id", slot "title", slot "length", slot "track", slot "disc", slot "path",
    slot "album_id", slot "album_name", slot "artist_id", slot "artist_name", slot "play_count",
    slot "liked", slot "created_at", slot "updated_at"]

def ofJson? (json : Json) : Option Song := do
  let [id, title, length, track, disc, path, albumId, albumName, artistId, artistName, playCount,
    liked, createdAt, updatedAt] ← gather slots json | none
  return ⟨← required string? id, ← required string? title, ← required real? length,
    ← optional int32? track, ← required int32? disc, ← required string? path,
    ← required int64? albumId, ← required string? albumName, ← required int64? artistId,
    ← required string? artistName, ← required int64? playCount, ← required bool? liked,
    ← required string? createdAt, ← required string? updatedAt⟩

def toJson (s : Song) : Json :=
  .object [("id", .string s.id), ("title", .string s.title), ("length", ofReal s.length),
    ("track", orNull ofInt s.track), ("disc", ofInt s.disc), ("path", .string s.path),
    ("album_id", ofInt s.albumId), ("album_name", .string s.albumName),
    ("artist_id", ofInt s.artistId), ("artist_name", .string s.artistName),
    ("play_count", ofInt s.playCount), ("liked", .bool s.liked),
    ("created_at", .string s.createdAt), ("updated_at", .string s.updatedAt)]

def format : Format Song := ⟨.flat slots, ofJson?, toJson⟩

end Song

namespace NewSong

def slots : List Slot :=
  [slot "title", slot "length", slot "track", slot "disc", slot "path", slot "album_id",
    slot "artist_id"]

def ofJson? (json : Json) : Option NewSong := do
  let [title, length, track, disc, path, albumId, artistId] ← gather slots json | none
  return ⟨← required string? title, ← required real? length, ← optional int32? track,
    ← required int32? disc, ← required string? path, ← required int64? albumId,
    ← required int64? artistId⟩

def toJson (s : NewSong) : Json :=
  .object [("title", .string s.title), ("length", ofReal s.length),
    ("track", orNull ofInt s.track), ("disc", ofInt s.disc), ("path", .string s.path),
    ("album_id", ofInt s.albumId), ("artist_id", ofInt s.artistId)]

def format : Format NewSong := ⟨.flat slots, ofJson?, toJson⟩

end NewSong

namespace Interaction

def slots : List Slot :=
  [slot "user_id", slot "song_id", slot "liked", slot "play_count", slot "created_at",
    slot "updated_at"]

def ofJson? (json : Json) : Option Interaction := do
  let [userId, songId, liked, playCount, createdAt, updatedAt] ← gather slots json | none
  return ⟨← required int64? userId, ← required string? songId, ← required bool? liked,
    ← required int64? playCount, ← required string? createdAt, ← required string? updatedAt⟩

def toJson (i : Interaction) : Json :=
  .object [("user_id", ofInt i.userId), ("song_id", .string i.songId), ("liked", .bool i.liked),
    ("play_count", ofInt i.playCount), ("created_at", .string i.createdAt),
    ("updated_at", .string i.updatedAt)]

def format : Format Interaction := ⟨.flat slots, ofJson?, toJson⟩

end Interaction

namespace Playlist

def fields : List (Slot × Shape) :=
  [(slot "id", .whole), (slot "owner_id", .whole), (slot "name", .whole),
    (slot "is_smart", .whole), (slot "rules", GroupRecord.listFormat.shape),
    (slot "created_at", .whole), (slot "updated_at", .whole)]

def ofJson? (json : Json) : Option Playlist := do
  let [id, ownerId, name, isSmart, rules, createdAt, updatedAt] ←
    gather (fields.map (·.1)) json | none
  return ⟨← required int64? id, ← required int64? ownerId, ← required string? name,
    ← required bool? isSmart, ← required GroupRecord.listFormat.ofJson? rules,
    ← required string? createdAt, ← required string? updatedAt⟩

def toJson (p : Playlist) : Json :=
  .object [("id", ofInt p.id), ("owner_id", ofInt p.ownerId), ("name", .string p.name),
    ("is_smart", .bool p.isSmart), ("rules", GroupRecord.listFormat.toJson p.rules),
    ("created_at", .string p.createdAt), ("updated_at", .string p.updatedAt)]

def format : Format Playlist := ⟨.record fields, ofJson?, toJson⟩

end Playlist

namespace NewPlaylist

def fields : List (Slot × Shape) :=
  [(slot "owner_id", .whole), (slot "name", .whole), (slot "is_smart", .whole),
    (⟨"rules", none, true⟩, GroupRecord.listFormat.shape)]

def ofJson? (json : Json) : Option NewPlaylist := do
  let [ownerId, name, isSmart, rules] ← gather (fields.map (·.1)) json | none
  return ⟨← required int64? ownerId, ← required string? name, ← required bool? isSmart,
    ← defaulted [] GroupRecord.listFormat.ofJson? rules⟩

def toJson (p : NewPlaylist) : Json :=
  .object [("owner_id", ofInt p.ownerId), ("name", .string p.name), ("is_smart", .bool p.isSmart),
    ("rules", GroupRecord.listFormat.toJson p.rules)]

def format : Format NewPlaylist := ⟨.record fields, ofJson?, toJson⟩

end NewPlaylist

namespace SongPage

/-- More songs match than the pages up to this one hold. The count of those saturates. -/
def hasMore (p : SongPage) : Bool := min ((p.page * p.perPage : Nat) : Int) (2 ^ 63 - 1) < p.total

def empty (page perPage : Nat) : SongPage := ⟨[], 0, page, perPage⟩

def fields : List (Slot × Shape) :=
  [(slot "songs", Song.format.list.shape), (slot "total", .whole), (slot "page", .whole),
    (slot "per_page", .whole)]

def ofJson? (json : Json) : Option SongPage := do
  let [songs, total, page, perPage] ← gather (fields.map (·.1)) json | none
  return ⟨← required Song.format.list.ofJson? songs, ← required int64? total,
    ← required nat32? page, ← required nat32? perPage⟩

def toJson (p : SongPage) : Json :=
  .object [("songs", Song.format.list.toJson p.songs), ("total", ofInt p.total),
    ("page", ofNat p.page), ("per_page", ofNat p.perPage)]

def format : Format SongPage := ⟨.record fields, ofJson?, toJson⟩

end SongPage

end Setlist
