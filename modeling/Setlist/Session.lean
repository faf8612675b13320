import Setlist.Cache.Store
import Setlist.Catalogue.Albums
import Setlist.Catalogue.Artists
import Setlist.Catalogue.Evaluate
import Setlist.Catalogue.Interactions
import Setlist.Catalogue.Playlists
import Setlist.Catalogue.Users
import Setlist.Settings.Basic

/-! # Sessions

A session serves all users of one catalogue. Compiled playlists are kept in a cache that the
users share; a change of a playlist drops what was compiled for it.
-/

namespace Setlist

structure Session where
  plan : Plan
  catalogue : Catalogue
  cache : Cache
  defaultPerPage : Nat
  maxPerPage : Nat

/-- A request changes the session and may fail; a failure undoes nothing. -/
abbrev Request := ExceptT CatalogueError (StateM Session)

namespace Session

/-- The longest time that the database waits for a lock, in milliseconds. -/
def longestTimeout : Nat := 2 ^ 31 - 1

/-- File systems that a database can be opened through. -/
def fileSystems : List String := ["unix", "unix-none", "unix-dotfile", "unix-excl", "memdb"]

/-- The name leads through a folder; a session has none. -/
def isInFolder (name : String) : Bool :=
  (name.splitOn "/").dropLast.any fun folder => ["", ".", ".."].all (· != folder)

/-- Why the database at an address cannot be opened. -/
def openingFault? (address : Address) : Option DatabaseFault :=
  match address.fileSystem with
  | some name => if fileSystems.contains name then none else some (.unknownFileSystem name)
  | none =>
    if address.name.contains '\x00' then some .nulInName
    else if !address.inMemory && isInFolder address.name then some .missingFolder
    else none

/-- Why the settings, faultless in themselves, do not lead to a database. -/
def databaseFault? (settings : Settings) : Option DatabaseFault :=
  match Address.ofText settings.databaseUrl with
  | .error fault => some (.address fault)
  | .ok address =>
    (openingFault? address).or
      (if longestTimeout < settings.busyTimeoutSecs * 1000 then some .timeoutTooLong else none)

/-- A session on an empty catalogue, with settings that have no fault. -/
def start (plan : Plan) (settings : Settings) : Except CatalogueError Session := do
  let settings ← settings.validated
  match databaseFault? settings with
  | some fault => throw (.database fault)
  | none =>
    return ⟨plan, .empty, .empty settings.cacheSize, settings.defaultPerPage, settings.maxPerPage⟩

def act {α : Type} (action : Action α) : Request α := fun session =>
  let (result, catalogue) := action session.catalogue
  (result, { session with catalogue := catalogue })

def ask {α : Type} (read : Catalogue → Except CatalogueError α) : Request α := do
  match read (← get).catalogue with
  | .ok value => return value
  | .error error => throw error

def changeCache (change : Cache → Cache) : Request Unit :=
  modify fun session => { session with cache := change session.cache }

/-- The page asked for, or the first one of the usual size, but none that is too large. -/
def page (session : Session) (request : Option PageRequest) : PageRequest :=
  (request.getD (.of 1 session.defaultPerPage)).clamped session.maxPerPage

def playlists (user : Int) : Request (List Playlist) := ask fun c => Playlists.ofUser c user

def playlist (user id : Int) : Request (Option Playlist) := ask fun c => Playlists.get? c id user

def createPlaylist (now : Instant) (user : Int) (name : String) (rules : List GroupRecord) :
    Request Playlist :=
  act (Playlists.create now ⟨user, name, true, rules⟩)

def updateRules (now : Instant) (user id : Int) (rules : List GroupRecord) : Request Playlist := do
  let playlist ← act (Playlists.updateRules now id user rules)
  changeCache (·.invalidate id)
  return playlist

def rename (now : Instant) (user id : Int) (name : String) : Request Playlist :=
  act (Playlists.rename now id user name)

def deletePlaylist (user id : Int) : Request Unit := do
  act (Playlists.delete id user)
  changeCache (·.invalidate id)

def compiled (user id : Int) : Request Expression := do
  match ← playlist user id with
  | none => throw (.notFound .playlist (toString id))
  | some found =>
    if !found.isSmart then throw (.invalidInput (.notSmart id))
    let session ← get
    let (result, cache) := session.cache.getOrCompile id user found.rules
    set { session with cache := cache }
    match result with
    | .ok entry => return entry.expression
    | .error faults => throw (.rules faults)

def songs (now : Instant) (user id : Int) (order : SortOrder) (request : Option PageRequest) :
    Request SongPage := do
  let expression ← compiled user id
  let session ← get
  ask fun c => c.evaluate session.plan expression order (session.page request) now

def preview (now : Instant) (user : Int) (rules : List GroupRecord) (order : SortOrder)
    (request : Option PageRequest) : Request SongPage := do
  match GroupRecord.compileStrict user rules with
  | .error faults => throw (.rules faults)
  | .ok expression =>
    let session ← get
    ask fun c => c.evaluate session.plan expression order (session.page request) now

/-- A page of the songs that match an expression, no larger than the session allows. -/
def evaluate (now : Instant) (expression : Expression) (order : SortOrder)
    (request : PageRequest) : Request SongPage := do
  let session ← get
  ask fun c => c.evaluate session.plan expression order (request.clamped session.maxPerPage) now

def song (user : Int) (id : String) : Request (Option Song) := ask fun c => Songs.get? c user id

def recordPlay (now : Instant) (user : Int) (song : String) : Request Interaction :=
  act (Interactions.recordPlay now user song)

def setLiked (now : Instant) (user : Int) (song : String) (liked : Bool) : Request Interaction :=
  act (Interactions.setLiked now user song liked)

def recentlyPlayed (user : Int) (limit : Option Nat) : Request (List Song) :=
  ask fun c => Songs.many c user (Interactions.recentlyPlayed c user limit)

def favorites (user : Int) : Request (List Song) := ask fun c => Interactions.favorites c user

end Session

end Setlist
