import Setlist.Proofs.Catalogue.Reachable
import Setlist.Proofs.Query.Truth

/-! # Joined rows

In a catalogue in good order every song has one album and one artist, and at most one
interaction with a user. So whatever relations are joined, each song makes exactly one row.
-/

namespace Setlist

/-- The row without the relations that are not joined. -/
def Row.restrict (joins : Joins) (row : Row) : Row where
  song := row.song
  album := if joins.album then row.album else none
  artist := if joins.artist then row.artist else none
  interaction := if joins.interaction then row.interaction else none

namespace Catalogue

variable {c : Catalogue}

/-- A song with all that can be joined to it, as a user sees it. -/
def view (c : Catalogue) (user : Int) (song : SongRow) : Row where
  song := song
  album := c.album? song.albumId
  artist := c.artist? song.artistId
  interaction := c.interaction? user song.id

theorem filter_eq_find? {α β : Type} {key : α → β} {test : α → Bool} {k : β} {rows : List α}
    (hnodup : (rows.map key).Nodup) (htest : ∀ row, test row = true ↔ key row = k) :
    rows.filter test = (rows.find? test).toList := by
  induction rows with
  | nil => rfl
  | cons row rest ih =>
    rw [List.map_cons, List.nodup_cons] at hnodup
    cases hrow : test row with
    | true =>
      have hrest : rest.filter test = [] := by
        refine List.filter_eq_nil_iff.mpr fun other hother h => hnodup.1 ?_
        rw [(htest row).mp hrow, ← (htest other).mp h]
        exact List.mem_map_of_mem hother
      rw [List.filter_cons_of_pos hrow, hrest, List.find?_cons_of_pos hrow]
      rfl
    | false =>
      have hnot : ¬test row = true := by simp [hrow]
      rw [List.filter_cons_of_neg hnot, List.find?_cons_of_neg hnot]
      exact ih hnodup.2

theorem song?_of_mem (hc : c.Invariant) {song : SongRow} (hsong : song ∈ c.songs) :
    c.song? song.id = some song := by
  have hsome : (c.song? song.id).isSome := List.find?_isSome.mpr ⟨song, hsong, beq_self_eq_true _⟩
  obtain ⟨found, hfound⟩ := Option.isSome_iff_exists.mp hsome
  have hid : found.id = song.id := beq_iff_eq.mp (List.find?_some hfound :)
  rw [hfound, List.inj_on_of_nodup_map hc.distinct.songs (List.mem_of_find?_eq_some hfound)
    hsong hid]

theorem flatMap_singletons {α β γ : Type} {items : List α} {f : β → List γ} {g : α → β}
    {h : α → γ} (hsingle : ∀ a ∈ items, f (g a) = [h a]) :
    (items.map g).flatMap f = items.map h := by
  induction items with
  | nil => rfl
  | cons a rest ih =>
    have hrest := ih fun b hb => hsingle b (List.mem_cons_of_mem _ hb)
    rw [List.map_cons, List.flatMap_cons, hsingle a List.mem_cons_self, hrest]
    rfl

theorem withAlbums_eq (hc : c.Invariant) {row : Row} (hrow : row.song ∈ c.songs) :
    row.withAlbums c.albums = [{ row with album := c.album? row.song.albumId }] := by
  obtain ⟨album, halbum⟩ := Option.isSome_iff_exists.mp (hc.linked.songAlbum row.song hrow)
  have hfilter := filter_eq_find? (k := row.song.albumId) hc.distinct.albums.nodup
    fun row => beq_iff_eq
  have hfind : c.albums.find? (·.id == row.song.albumId) = some album := halbum
  rw [Row.withAlbums, hfilter, hfind, halbum]
  rfl

theorem withArtists_eq (hc : c.Invariant) {row : Row} (hrow : row.song ∈ c.songs) :
    row.withArtists c.artists = [{ row with artist := c.artist? row.song.artistId }] := by
  obtain ⟨artist, hartist⟩ := Option.isSome_iff_exists.mp (hc.linked.songArtist row.song hrow)
  have hfilter := filter_eq_find? (k := row.song.artistId) hc.distinct.artists.nodup
    fun row => beq_iff_eq
  have hfind : c.artists.find? (·.id == row.song.artistId) = some artist := hartist
  rw [Row.withArtists, hfilter, hfind, hartist]
  rfl

theorem withInteractions_eq (hc : c.Invariant) (user : Int) {row : Row}
    (hrow : row.interaction = none) : row.withInteractions c.interactions user =
      [{ row with interaction := c.interaction? user row.song.id }] := by
  have hkey : ∀ i : Interaction, (i.userId == user && i.songId == row.song.id) = true ↔
      (i.userId, i.songId) = (user, row.song.id) := by simp
  have hfilter : (c.interactions.filter fun i => i.songId == row.song.id && i.userId == user) =
      (c.interaction? user row.song.id).toList := by
    simp only [Bool.and_comm (_ == row.song.id)]
    exact filter_eq_find? hc.distinct.interactions hkey
  rw [Row.withInteractions, hfilter]
  obtain ⟨song, album, artist, interaction⟩ := row
  obtain rfl : interaction = none := hrow
  cases c.interaction? user song.id with
  | none => rfl
  | some i => rfl

/-- Each song makes one row, with the relations that are joined. -/
theorem joined_eq (hc : c.Invariant) (joins : Joins) (user : Int) :
    c.joined joins user = c.songs.map fun song => (c.view user song).restrict joins := by
  let bare (song : SongRow) : Row := (c.view user song).restrict .none
  let onAlbum (song : SongRow) : Row := (c.view user song).restrict ⟨joins.album, false, false⟩
  let onArtist (song : SongRow) : Row :=
    (c.view user song).restrict ⟨joins.album, joins.artist, false⟩
  have halbum : (if joins.album then (c.songs.map bare).flatMap (Row.withAlbums c.albums)
      else c.songs.map bare) = c.songs.map onAlbum := by
    cases hjoin : joins.album with
    | true =>
      apply (flatMap_singletons fun song hsong => withAlbums_eq hc hsong).trans
      simp [onAlbum, bare, hjoin, Row.restrict, Joins.none, view]
    | false => simp [onAlbum, bare, hjoin, Row.restrict, Joins.none]
  have hartist : (if joins.artist then (c.songs.map onAlbum).flatMap (Row.withArtists c.artists)
      else c.songs.map onAlbum) = c.songs.map onArtist := by
    cases hjoin : joins.artist with
    | true =>
      apply (flatMap_singletons fun song hsong => withArtists_eq hc hsong).trans
      simp [onAlbum, onArtist, hjoin, Row.restrict, view]
    | false => simp [onAlbum, onArtist, hjoin, Row.restrict]
  have hbare : c.songs.map Row.ofSong = c.songs.map bare := rfl
  rw [joined, hbare]
  simp only [halbum, hartist]
  cases hjoin : joins.interaction with
  | true =>
    apply (flatMap_singletons fun song _ => withInteractions_eq hc user rfl).trans
    simp [onArtist, hjoin, Row.restrict, view]
  | false => simp [onArtist, hjoin, Row.restrict]

end Catalogue

end Setlist
