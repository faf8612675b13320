import Setlist.Catalogue.Action
import Setlist.Query.Selection

/-! # Songs

Songs are handed out with the names of their album and artist and with what the viewer did
with them. A song that the viewer never touched was not played and is not liked.
-/

namespace Setlist

namespace Songs

/-- All songs as a viewer sees them. No one has the id zero, which stands for no viewer. -/
def viewed (c : Catalogue) (viewer : Option Int) : List Row :=
  c.joined ⟨true, true, true⟩ (viewer.getD 0)

def among (c : Catalogue) (viewer : Option Int) (ids : List String) : List Song :=
  ((viewed c viewer).filter fun row => ids.contains row.song.id).filterMap Row.toSong?

/-- Cuts a list into parts of a size; size zero leaves it whole. -/
def chunks {α : Type} (size : Nat) (items : List α) : List (List α) :=
  if size = 0 ∨ items.length ≤ size then [items]
  else items.take size :: chunks size (items.drop size)
termination_by items.length
decreasing_by
  simp only [List.length_drop]
  omega

def remember (found : List Song) (song : Song) : List Song :=
  song :: found.filter (·.id != song.id)

/-- Takes songs out in the order of a list of ids, each song once. -/
def takeInOrder : List String → List Song → List Song
  | [], _ => []
  | id :: rest, found =>
    match found.find? (·.id == id) with
    | some song => song :: takeInOrder rest (found.filter (·.id != id))
    | none => takeInOrder rest found

/-- The songs of a list of ids in its order, looked up in parts of a size. -/
def fetch (size : Nat) (c : Catalogue) (viewer : Option Int) (ids : List String) : List Song :=
  let found := (chunks size ids).foldl
    (fun found part => (among c viewer part).foldl remember found) []
  takeInOrder ids found

def chunkSize : Nat := 500

/-- Songs can be handed out if all of their play counts are integers of the database. -/
def readable (songs : List Song) : Except CatalogueError (List Song) :=
  if songs.any fun song => Interaction.countLimit ≤ song.playCount then
    .error (.database .countTooLarge)
  else .ok songs

/-- The songs of a list of ids; ids that do not exist are skipped. -/
def many (c : Catalogue) (user : Int) (ids : List String) : Except CatalogueError (List Song) :=
  readable (fetch chunkSize c (some user) ids)

def get? (c : Catalogue) (user : Int) (id : String) : Except CatalogueError (Option Song) :=
  (many c user [id]).map (·.head?)

def isPresent (c : Catalogue) (id : String) : Bool := (c.song? id).isSome

/-- By disc and track, songs without a track first, then by title and id. -/
def albumOrder (a b : Row) : Bool :=
  let byTrack := Cell.compare (a.cell .track) (b.cell .track)
  ((compare a.song.disc b.song.disc).then (byTrack.then
    ((compare a.song.title b.song.title).then (compare a.song.id b.song.id)))) != .gt

def ofAlbum (c : Catalogue) (user : Int) (albumId : Int) : Except CatalogueError (List Song) :=
  let rows := (viewed c (some user)).filter (·.song.albumId == albumId)
  readable ((rows.mergeSort albumOrder).filterMap Row.toSong?)

/-- A length is kept without the sign of a zero. -/
def storedLength (length : Binary64) : Binary64 := if length.isZero then .zero else length

/-- Adds a song under an id that has been drawn for it. -/
def create (now : Instant) (song : NewSong) (id : String) : Action Song := do
  Action.failWhen (!song.length.isFinite || song.length.units < 0)
    (.invalidInput (.songLength song.length))
  let time ← Action.stamp now .song .created
  let c ← get
  Action.failWhen (c.songs.any (·.path == song.path)) (.database (.repeated .songPath))
  Action.failWhen (isPresent c id) (.database (.repeated .songId))
  Action.failWhen ((c.album? song.albumId).isNone || (c.artist? song.artistId).isNone)
    (.database .dangling)
  let row : SongRow := ⟨id, song.albumId, song.artistId, song.title, Text.fold song.title,
    storedLength song.length, song.track, song.disc, song.path, time, time⟩
  set { c with songs := c.songs ++ [row] }
  Action.readBack (fun c => (fetch chunkSize c none [id]).head?) .song id

def delete (id : String) : Action Unit := do
  let c ← get
  Action.failWhen (!isPresent c id) (.notFound .song id)
  let songs := c.songs.filter (·.id != id)
  set { c with songs := songs, interactions := c.interactions.filter (·.songId != id) }

end Songs

end Setlist
