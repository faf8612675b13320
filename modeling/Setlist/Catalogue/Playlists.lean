import Setlist.Catalogue.Action

/-! # Playlists

Only its owner sees or changes a playlist. A smart one holds rules that compile, stored as
text; a plain one holds none.
-/

namespace Setlist

namespace Playlists

def ofRow (row : PlaylistRow) : Except CatalogueError Playlist :=
  match GroupRecord.listFormat.ofText? row.rules with
  | some rules =>
    .ok ⟨row.id, row.ownerId, row.name, row.isSmart, rules, row.createdAt, row.updatedAt⟩
  | none => .error .unreadableRules

def fetch (c : Catalogue) (id : Int) : Except CatalogueError (Option Playlist) :=
  match c.playlist? id with
  | some row => (ofRow row).map some
  | none => .ok none

/-- The playlist with an id, if the user owns it. -/
def get? (c : Catalogue) (id user : Int) : Except CatalogueError (Option Playlist) :=
  (fetch c id).map fun playlist => playlist.filter (·.ownerId == user)

def recencyOrder (a b : PlaylistRow) : Bool :=
  ((compare b.updatedAt a.updatedAt).then (compare b.id a.id)) != .gt

def ofUser (c : Catalogue) (user : Int) : Except CatalogueError (List Playlist) :=
  ((c.playlists.filter (·.ownerId == user)).mergeSort recencyOrder).mapM ofRow

/-- The playlist with an id, for a change by its owner. -/
def owned (c : Catalogue) (id user : Int) : Except CatalogueError Playlist := do
  match ← fetch c id with
  | none => throw (.notFound .playlist (toString id))
  | some playlist =>
    if playlist.ownerId == user then return playlist else throw .permissionDenied

def checkName (name : String) : Except CatalogueError String :=
  let name := Text.trim name
  if name.isEmpty then .error (.invalidInput .blankPlaylistName) else .ok name

def checkRules (rules : List GroupRecord) (owner : Int) : Except CatalogueError Unit :=
  match GroupRecord.compileStrict owner rules with
  | .ok _ => .ok ()
  | .error faults => .error (.rules faults)

/-- Smart playlists need rules that compile; plain ones have none. -/
def checkNew (playlist : NewPlaylist) : Except CatalogueError Unit :=
  if playlist.isSmart then checkRules playlist.rules playlist.ownerId
  else if playlist.rules.isEmpty then .ok ()
  else .error (.invalidInput .rulesOnPlainPlaylist)

def checkSmart (playlist : Playlist) : Except CatalogueError Unit :=
  if playlist.isSmart then .ok () else .error (.invalidInput (.notSmart playlist.id))

def readBack (id : Int) : Action Playlist := do
  match ← fetch (← get) id with
  | some playlist => return playlist
  | none => throw (.notFound .playlist (toString id))

def insert (now : Instant) (owner : Int) (name : String) (isSmart : Bool) (rules : String) :
    Action Int := do
  let time ← Action.stamp now .playlist .created
  let c ← get
  Action.failWhen (c.user? owner).isNone (.database .dangling)
  let row : PlaylistRow := ⟨c.playlistIds + 1, owner, name, isSmart, rules, time, time⟩
  set { c with playlists := c.playlists ++ [row], playlistIds := c.playlistIds + 1 }
  return row.id

def modify (id : Int) (change : PlaylistRow → PlaylistRow) : Action Unit := do
  let c ← get
  let rows := c.playlists.map fun row => if row.id == id then change row else row
  set { c with playlists := rows }

def create (now : Instant) (playlist : NewPlaylist) : Action Playlist := do
  let name ← checkName playlist.name
  checkNew playlist
  readBack (← insert now playlist.ownerId name playlist.isSmart (GroupRecord.listFormat.text playlist.rules))

def updateRules (now : Instant) (id user : Int) (rules : List GroupRecord) : Action Playlist := do
  let playlist ← owned (← get) id user
  checkSmart playlist
  checkRules rules playlist.ownerId
  let time ← Action.stamp now .playlist .updated
  modify id fun row =>
    { row with rules := GroupRecord.listFormat.text rules, updatedAt := time }
  readBack id

def rename (now : Instant) (id user : Int) (name : String) : Action Playlist := do
  let name ← checkName name
  let _ ← owned (← get) id user
  let time ← Action.stamp now .playlist .updated
  modify id fun row => { row with name := name, updatedAt := time }
  readBack id

def delete (id user : Int) : Action Unit := do
  let _ ← owned (← get) id user
  let c ← get
  let rows := c.playlists.filter fun row => !(row.id == id && row.ownerId == user)
  set { c with playlists := rows }

end Playlists

end Setlist
