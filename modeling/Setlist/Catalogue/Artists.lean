import Setlist.Catalogue.Action

/-! # Artists

No two artists have one name, exactly compared.
-/

namespace Setlist

namespace Artists

def ofRow (row : ArtistRow) : Artist := ⟨row.id, row.name, row.createdAt, row.updatedAt⟩

def get? (c : Catalogue) (id : Int) : Option Artist := (c.artist? id).map ofRow

def find? (c : Catalogue) (name : String) : Option Artist :=
  (c.artists.find? (·.name == name)).map ofRow

def create (now : Instant) (artist : NewArtist) : Action Artist := do
  let time ← Action.stamp now .artist .created
  let c ← get
  Action.failWhen (c.artists.any (·.name == artist.name)) (.database (.repeated .artistName))
  let row : ArtistRow := ⟨c.artistIds + 1, artist.name, Text.fold artist.name, time, time⟩
  set { c with artists := c.artists ++ [row], artistIds := c.artistIds + 1 }
  Action.readBack (get? · row.id) .artist (toString row.id)

def findOrCreate (now : Instant) (name : String) : Action Artist := do
  match find? (← get) name with
  | some artist => return artist
  | none => create now ⟨name⟩

end Artists

end Setlist
