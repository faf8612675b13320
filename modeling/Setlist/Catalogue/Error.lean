import Setlist.Rule.Expression
import Setlist.Settings.Address

/-! # Catalogue errors

Why an operation on the catalogue failed, and how the failure appears to a caller who does
not know about storage.
-/

namespace Setlist

inductive Entity
  | user | artist | album | song | interaction | playlist
  deriving DecidableEq, Repr

def Entity.name : Entity → String
  | user => "User"
  | artist => "Artist"
  | album => "Album"
  | song => "Song"
  | interaction => "Interaction"
  | playlist => "Playlist"

def Entity.table : Entity → String
  | user => "users"
  | artist => "artists"
  | album => "albums"
  | song => "songs"
  | interaction => "interactions"
  | playlist => "playlists"

/-- Columns whose values may not be repeated together. -/
inductive Uniqueness
  | artistName | albumName | songPath | songId | interaction
  deriving DecidableEq, Repr

def Uniqueness.columns : Uniqueness → String
  | artistName => "artists.name"
  | albumName => "albums.artist_id, albums.name"
  | songPath => "songs.path"
  | songId => "songs.id"
  | interaction => "interactions.user_id, interactions.song_id"

inductive Dating
  | created | updated
  deriving DecidableEq, Repr

def Dating.column : Dating → String
  | created => "created_at"
  | updated => "updated_at"

inductive DatabaseFault
  | repeated (columns : Uniqueness)
  | undated (entity : Entity) (dating : Dating)
  | dangling
  | patternTooLong
  | queryTooDeep
  | tooManyValues
  | countTooLarge
  | address (fault : AddressFault)
  | nulInName
  | unknownFileSystem (name : String)
  | missingFolder
  | timeoutTooLong
  deriving DecidableEq, Repr

/-- A repeated primary key has a code of its own. -/
def Uniqueness.code : Uniqueness → Nat
  | songId => 1555
  | _ => 2067

def DatabaseFault.reported (code : Nat) (text : String) : String :=
  "error returned from database: (code: " ++ toString code ++ ") " ++ text

def DatabaseFault.message : DatabaseFault → String
  | repeated columns => reported columns.code ("UNIQUE constraint failed: " ++ columns.columns)
  | undated entity dating =>
    reported 1299 ("NOT NULL constraint failed: " ++ entity.table ++ "." ++ dating.column)
  | dangling => reported 787 "FOREIGN KEY constraint failed"
  | patternTooLong => reported 1 "LIKE or GLOB pattern too complex"
  | queryTooDeep => reported 1 "Expression tree is too large (maximum depth 1000)"
  | tooManyValues => reported 1 "too many SQL variables"
  | countTooLarge =>
    "error occurred while decoding column \"play_count\": mismatched types; Rust type `i64` " ++
      "(as SQL type `INTEGER`) is not compatible with SQL type `REAL`"
  | address fault => "error with configuration: " ++ fault.message
  | nulInName =>
    "error communicating with database: filename passed to SQLite must not contain nul bytes"
  | unknownFileSystem name => reported 1 ("no such vfs: " ++ name)
  | missingFolder => reported 14 "unable to open database file"
  | timeoutTooLong => "attempted to communicate with a crashed background worker"

inductive InputFault
  | blankUserName
  | blankPlaylistName
  | songLength (length : Binary64)
  | rulesOnPlainPlaylist
  | notSmart (playlist : Int)
  deriving DecidableEq, Repr

def InputFault.message : InputFault → String
  | blankUserName => "user name cannot be empty"
  | blankPlaylistName => "playlist name cannot be empty"
  | songLength length =>
    "song length must be a non-negative number of seconds, got " ++ length.display
  | rulesOnPlainPlaylist => "only smart playlists can have rules"
  | notSmart playlist => "playlist " ++ toString playlist ++ " is not a smart playlist"

inductive SettingsFault
  | noDatabase
  | noConnections
  | noPageSize
  | pageSizes (default most : Nat)
  | noCache
  deriving DecidableEq, Repr

def SettingsFault.message : SettingsFault → String
  | noDatabase => "database_url is required"
  | noConnections => "max_connections must be at least 1"
  | noPageSize => "page sizes must be at least 1"
  | pageSizes default most =>
    "default_per_page (" ++ toString default ++ ") exceeds max_per_page (" ++ toString most ++ ")"
  | noCache => "expression_cache_size must be at least 1"

inductive CatalogueError
  | database (fault : DatabaseFault)
  | settings (fault : SettingsFault)
  | rules (faults : List RuleFault)
  | notFound (entity : Entity) (id : String)
  | permissionDenied
  | invalidInput (fault : InputFault)
  | unreadableRules

namespace CatalogueError

def message : CatalogueError → String
  | database fault => fault.message
  | settings fault => "Configuration error: " ++ fault.message
  | rules faults => RuleFault.summary faults
  | notFound entity id => entity.name ++ " not found: " ++ id
  | permissionDenied => "Permission denied"
  | invalidInput fault => "Invalid input: " ++ fault.message
  | unreadableRules => "Serialization error"

/-- The failure as it appears outside of storage. -/
def publicMessage : CatalogueError → String
  | database fault => "Database error: " ++ fault.message
  | settings fault => "Storage error: " ++ (settings fault).message
  | rules faults => "Invalid smart playlist rules: " ++ RuleFault.summary faults
  | error => error.message

end CatalogueError

end Setlist
