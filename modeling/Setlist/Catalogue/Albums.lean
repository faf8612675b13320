import Setlist.Catalogue.Action

/-! # Albums

An album belongs to an artist, who has no other album of its name.
-/

namespace Setlist

namespace Albums

def ofRow (c : Catalogue) (row : AlbumRow) : Album :=
  ⟨row.id, row.name, row.artistId, (c.artist? row.artistId).map (·.name), row.createdAt,
    row.updatedAt⟩

def get? (c : Catalogue) (id : Int) : Option Album := (c.album? id).map (ofRow c)

def find? (c : Catalogue) (artistId : Int) (name : String) : Option Album :=
  (c.albums.find? fun row => row.artistId == artistId && row.name == name).map (ofRow c)

def byArtist (c : Catalogue) (artistId : Int) : List Album :=
  ((c.albums.filter (·.artistId == artistId)).mergeSort fun a b =>
    compare a.name b.name != .gt).map (ofRow c)

def create (now : Instant) (album : NewAlbum) : Action Album := do
  let time ← Action.stamp now .album .created
  let c ← get
  Action.failWhen (c.albums.any fun row => row.artistId == album.artistId && row.name == album.name)
    (.database (.repeated .albumName))
  Action.failWhen (c.artist? album.artistId).isNone (.database .dangling)
  let row : AlbumRow :=
    ⟨c.albumIds + 1, album.artistId, album.name, Text.fold album.name, time, time⟩
  set { c with albums := c.albums ++ [row], albumIds := c.albumIds + 1 }
  Action.readBack (get? · row.id) .album (toString row.id)

end Albums

end Setlist
