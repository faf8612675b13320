import Setlist.Catalogue.Songs

/-! # Interactions

There is at most one interaction of a user with a song. Playing counts and dates it; liking
changes nothing but the mark.
-/

namespace Setlist

namespace Interactions

/-- What a user did with a song, as far as its play count can be read. -/
def get? (c : Catalogue) (user : Int) (song : String) :
    Except CatalogueError (Option Interaction) :=
  match c.interaction? user song with
  | some found =>
    if Interaction.countLimit ≤ found.playCount then .error (.database .countTooLarge)
    else .ok (some found)
  | none => .ok none

def readBack (user : Int) (song : String) : Action Interaction := do
  match ← get? (← get) user song with
  | some found => return found
  | none => throw (.notFound .interaction song)

/-- Changes the interaction of a user with a song if there is one, and else adds `fresh`. -/
def upsert (fresh : Interaction) (change : Interaction → Interaction) : Action Interaction := do
  let c ← get
  let same (i : Interaction) : Bool := i.userId == fresh.userId && i.songId == fresh.songId
  if c.interactions.any same then
    set { c with interactions := c.interactions.map fun i => if same i then change i else i }
  else
    Action.failWhen (c.user? fresh.userId).isNone (.database .dangling)
    set { c with interactions := c.interactions ++ [fresh] }
  readBack fresh.userId fresh.songId

/-- The time to date an interaction by, if there is such a song. -/
def stamp (now : Instant) (song : String) : Action String := do
  Action.failWhen (!Songs.isPresent (← get) song) (.notFound .song song)
  Action.stamp now .interaction .created

/-- One play more; a count past the integers of the database stays where it is. -/
def played (count : Int) : Int := min (count + 1) Interaction.countLimit

def recordPlay (now : Instant) (user : Int) (song : String) : Action Interaction := do
  let time ← stamp now song
  upsert ⟨user, song, false, 1, time, time⟩ fun i =>
    { i with playCount := played i.playCount, updatedAt := time }

def setLiked (now : Instant) (user : Int) (song : String) (liked : Bool) :
    Action Interaction := do
  let time ← stamp now song
  upsert ⟨user, song, liked, 0, time, time⟩ fun i => { i with liked := liked }

def insert (now : Instant) (user : Int) (song : String) (playCount : Int) : Action Unit := do
  let time ← Action.stamp now .interaction .created
  let c ← get
  Action.failWhen (c.interaction? user song).isSome (.database (.repeated .interaction))
  Action.failWhen ((c.user? user).isNone || !Songs.isPresent c song) (.database .dangling)
  let row : Interaction := ⟨user, song, false, playCount, time, time⟩
  set { c with interactions := c.interactions ++ [row] }

def recencyOrder (a b : Interaction) : Bool :=
  ((compare b.updatedAt a.updatedAt).then (compare a.songId b.songId)) != .gt

/-- The ids of the songs that a user played, at most `limit` of them. -/
def recentlyPlayed (c : Catalogue) (user : Int) (limit : Option Nat) : List String :=
  let played := (c.interactions.filter fun i => i.userId == user && decide (0 < i.playCount)
    ).mergeSort recencyOrder
  let kept := match limit with
    | some most => played.take most
    | none => played
  kept.map (·.songId)

def favorites (c : Catalogue) (user : Int) : Except CatalogueError (List Song) :=
  let liked := (c.interactions.filter fun i => i.userId == user && i.liked).flatMap fun i =>
    c.songs.filter (·.id == i.songId)
  let ordered := liked.mergeSort fun a b =>
    ((compare a.titleFolded b.titleFolded).then (compare a.id b.id)) != .gt
  Songs.many c user (ordered.map (·.id))

end Interactions

end Setlist
