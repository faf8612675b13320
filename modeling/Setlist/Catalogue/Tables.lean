import Setlist.Catalogue.Record
import Setlist.Text.Fold

/-! # Catalogue tables

The stored rows. Names and titles are kept with their folded forms, and the rules of a
playlist as the text they are written as.
-/

namespace Setlist

structure ArtistRow where
  id : Int
  name : String
  nameFolded : String
  createdAt : String
  updatedAt : String
  deriving DecidableEq, Repr

structure AlbumRow where
  id : Int
  artistId : Int
  name : String
  nameFolded : String
  createdAt : String
  updatedAt : String
  deriving DecidableEq, Repr

structure SongRow where
  id : String
  albumId : Int
  artistId : Int
  title : String
  titleFolded : String
  length : Binary64
  track : Option Int
  disc : Int
  path : String
  createdAt : String
  updatedAt : String
  deriving DecidableEq, Repr

structure PlaylistRow where
  id : Int
  ownerId : Int
  name : String
  isSmart : Bool
  rules : String
  createdAt : String
  updatedAt : String
  deriving DecidableEq, Repr

/-- The tables, and the number of ids that each of the numbered ones has given out. -/
structure Catalogue where
  users : List User
  artists : List ArtistRow
  albums : List AlbumRow
  songs : List SongRow
  interactions : List Interaction
  playlists : List PlaylistRow
  userIds : Nat
  artistIds : Nat
  albumIds : Nat
  playlistIds : Nat

namespace Catalogue

def empty : Catalogue := ⟨[], [], [], [], [], [], 0, 0, 0, 0⟩

def user? (c : Catalogue) (id : Int) : Option User := c.users.find? (·.id == id)

def artist? (c : Catalogue) (id : Int) : Option ArtistRow := c.artists.find? (·.id == id)

def album? (c : Catalogue) (id : Int) : Option AlbumRow := c.albums.find? (·.id == id)

def song? (c : Catalogue) (id : String) : Option SongRow := c.songs.find? (·.id == id)

def interaction? (c : Catalogue) (userId : Int) (songId : String) : Option Interaction :=
  c.interactions.find? fun i => i.userId == userId && i.songId == songId

def playlist? (c : Catalogue) (id : Int) : Option PlaylistRow := c.playlists.find? (·.id == id)

end Catalogue

end Setlist
