import Setlist.Proofs.Catalogue.Steps

/-! # Reachable catalogues

A catalogue is reached from the empty one by changes, which may fail. What holds of every
reachable catalogue is preserved by each step: ids are not repeated, rows refer to rows that
exist, names are kept with their folded forms, and stored rules can be read.
-/

namespace Setlist

/-- A change as a caller may ask for it, successful or not. -/
inductive Change where
  | createUser (now : Instant) (name : String)
  | createArtist (now : Instant) (artist : NewArtist)
  | findOrCreateArtist (now : Instant) (name : String)
  | createAlbum (now : Instant) (album : NewAlbum)
  | createSong (now : Instant) (song : NewSong) (id : String)
  | deleteSong (id : String)
  | recordPlay (now : Instant) (user : Int) (song : String)
  | setLiked (now : Instant) (user : Int) (song : String) (liked : Bool)
  | createPlaylist (now : Instant) (playlist : NewPlaylist)
  | updateRules (now : Instant) (id user : Int) (rules : List GroupRecord)
  | renamePlaylist (now : Instant) (id user : Int) (name : String)
  | deletePlaylist (id user : Int)

namespace Change

def apply : Change → Catalogue → Catalogue
  | createUser now name, c => (Users.create now name c).2
  | createArtist now artist, c => (Artists.create now artist c).2
  | findOrCreateArtist now name, c => (Artists.findOrCreate now name c).2
  | createAlbum now album, c => (Albums.create now album c).2
  | createSong now song id, c => (Songs.create now song id c).2
  | deleteSong id, c => (Songs.delete id c).2
  | recordPlay now user song, c => (Interactions.recordPlay now user song c).2
  | setLiked now user song liked, c => (Interactions.setLiked now user song liked c).2
  | createPlaylist now playlist, c => (Playlists.create now playlist c).2
  | updateRules now id user rules, c => (Playlists.updateRules now id user rules c).2
  | renamePlaylist now id user name, c => (Playlists.rename now id user name c).2
  | deletePlaylist id user, c => (Playlists.delete id user c).2

def Typed : Change → Prop
  | createPlaylist _ playlist => ∀ group ∈ playlist.rules, group.Typed
  | updateRules _ _ _ rules => ∀ group ∈ rules, group.Typed
  | _ => True

open Catalogue

/-- The user whose rows the change is about, if they belong to one. -/
def owner : Change → Option Int
  | recordPlay _ user _ => some user
  | setLiked _ user _ _ => some user
  | createPlaylist _ playlist => some playlist.ownerId
  | updateRules _ _ user _ => some user
  | renamePlaylist _ _ user _ => some user
  | deletePlaylist _ user => some user
  | _ => none

theorem apply_moves {change : Change} (h : change.Typed) (c : Catalogue) :
    Moves c change.owner (change.apply c) := by
  cases change with
  | createUser now name => exact Users.create_moves now name c
  | createArtist now artist => exact Artists.create_moves now artist c
  | findOrCreateArtist now name => exact Artists.findOrCreate_moves now name c
  | createAlbum now album => exact Albums.create_moves now album c
  | createSong now song id => exact Songs.create_moves now song id c
  | deleteSong id => exact Songs.delete_moves id c
  | recordPlay now user song => exact Interactions.recordPlay_moves now user song c
  | setLiked now user song liked => exact Interactions.setLiked_moves now user song liked c
  | createPlaylist now playlist => exact Playlists.create_moves now h c
  | updateRules now id user rules => exact Playlists.updateRules_moves now id user h c
  | renamePlaylist now id user name => exact Playlists.rename_moves now id user name c
  | deletePlaylist id user => exact Playlists.delete_moves id user c

end Change

namespace Catalogue

variable {c d : Catalogue} {owner : Option Int}

inductive Reachable : Catalogue → Prop where
  | empty : Reachable .empty
  | change {c : Catalogue} (change : Change) : change.Typed → Reachable c →
      Reachable (change.apply c)

/-- The ids are distinct and among the first `count` numbers. -/
structure Numbered (ids : List Int) (count : Nat) : Prop where
  nodup : ids.Nodup
  bounds : ∀ id ∈ ids, 1 ≤ id ∧ id ≤ count

theorem Numbered.nil : Numbered [] 0 := ⟨List.nodup_nil, fun _ h => nomatch h⟩

theorem Numbered.add {ids : List Int} {count : Nat} (h : Numbered ids count) :
    Numbered (ids ++ [(count : Int) + 1]) (count + 1) := by
  refine ⟨List.nodup_append.mpr ⟨h.nodup, List.nodup_singleton _, ?_⟩, ?_⟩
  · intro id hid new hnew
    have hbound := (h.bounds id hid).2
    have := List.mem_singleton.mp hnew
    omega
  · intro id hid
    rcases List.mem_append.mp hid with hid | hid
    · have hbound := h.bounds id hid
      omega
    · have := List.mem_singleton.mp hid
      omega

theorem Numbered.sublist {ids more : List Int} {count : Nat} (h : Numbered more count)
    (hsub : ids.Sublist more) : Numbered ids count :=
  ⟨h.nodup.sublist hsub, fun id hid => h.bounds id (hsub.subset hid)⟩

/-- No table repeats an id, and there is one interaction of a user with a song. -/
structure Distinct (c : Catalogue) : Prop where
  users : Numbered (c.users.map (·.id)) c.userIds
  artists : Numbered (c.artists.map (·.id)) c.artistIds
  albums : Numbered (c.albums.map (·.id)) c.albumIds
  playlists : Numbered (c.playlists.map (·.id)) c.playlistIds
  songs : (c.songs.map (·.id)).Nodup
  interactions : (c.interactions.map fun i => (i.userId, i.songId)).Nodup

structure Linked (c : Catalogue) : Prop where
  albumArtist : ∀ row ∈ c.albums, (c.artist? row.artistId).isSome
  songAlbum : ∀ row ∈ c.songs, (c.album? row.albumId).isSome
  songArtist : ∀ row ∈ c.songs, (c.artist? row.artistId).isSome
  interactionUser : ∀ i ∈ c.interactions, (c.user? i.userId).isSome
  interactionSong : ∀ i ∈ c.interactions, (c.song? i.songId).isSome
  playlistOwner : ∀ row ∈ c.playlists, (c.user? row.ownerId).isSome

structure Folded (c : Catalogue) : Prop where
  artists : ∀ row ∈ c.artists, row.nameFolded = Text.fold row.name
  albums : ∀ row ∈ c.albums, row.nameFolded = Text.fold row.name
  songs : ∀ row ∈ c.songs, row.titleFolded = Text.fold row.title

/-- The rules of every playlist can be read, and compile. -/
def Readable (c : Catalogue) : Prop := ∀ row ∈ c.playlists, ∃ rules, row.Holds rules

structure Invariant (c : Catalogue) : Prop where
  distinct : c.Distinct
  linked : c.Linked
  folded : c.Folded
  readable : c.Readable

theorem Distinct.empty : Distinct .empty :=
  ⟨.nil, .nil, .nil, .nil, List.nodup_nil, List.nodup_nil⟩

theorem song?_isNone_iff {id : String} : (c.song? id).isNone ↔ id ∉ c.songs.map (·.id) := by
  simp [song?]

theorem map_changed {α β : Type} {key : α → β} {test : α → Bool} {change : α → α} {rows : List α}
    (h : ∀ row, key (change row) = key row) :
    (rows.map fun row => if test row then change row else row).map key = rows.map key := by
  rw [List.map_map]
  apply List.map_congr_left
  intro row _
  dsimp only [Function.comp]
  split
  case isTrue => exact h row
  case isFalse => rfl

theorem forall_changed {α : Type} {P : α → Prop} {test : α → Bool} {change : α → α}
    {rows : List α} (h : ∀ row ∈ rows, P row) (hchange : ∀ row ∈ rows, P (change row)) :
    ∀ row ∈ rows.map (fun row => if test row then change row else row), P row := by
  intro new hnew
  obtain ⟨row, hrow, rfl⟩ := List.mem_map.mp hnew
  split
  case isTrue => exact hchange row hrow
  case isFalse => exact h row hrow

theorem nodup_map_append {α β : Type} {key : α → β} {rows : List α} {new : α}
    (h : (rows.map key).Nodup) (hnew : key new ∉ rows.map key) :
    ((rows ++ [new]).map key).Nodup := by
  rw [List.map_append, List.map_singleton, ← List.concat_eq_append]
  exact h.concat hnew

theorem Step.distinct (h : Step c owner d) (hc : c.Distinct) : d.Distinct := by
  obtain ⟨husers, hartists, halbums, hplaylists, hsongs, hinteractions⟩ := hc
  cases h with
  | addUser name time _ =>
    refine ⟨?_, hartists, halbums, hplaylists, hsongs, hinteractions⟩
    rw [List.map_append]
    exact husers.add
  | addArtist name time _ =>
    refine ⟨husers, ?_, halbums, hplaylists, hsongs, hinteractions⟩
    rw [List.map_append]
    exact hartists.add
  | addAlbum artistId name time _ _ =>
    refine ⟨husers, hartists, ?_, hplaylists, hsongs, hinteractions⟩
    rw [List.map_append]
    exact halbums.add
  | addSong row hid _ _ _ _ _ _ =>
    exact ⟨husers, hartists, halbums, hplaylists,
      nodup_map_append hsongs (song?_isNone_iff.mp hid), hinteractions⟩
  | dropSong id =>
    exact ⟨husers, hartists, halbums, hplaylists, hsongs.sublist (List.filter_sublist.map _),
      hinteractions.sublist (List.filter_sublist.map _)⟩
  | addInteraction i hnew _ _ _ =>
    refine ⟨husers, hartists, halbums, hplaylists, hsongs, ?_⟩
    apply nodup_map_append hinteractions
    intro h
    obtain ⟨j, hj, hsame⟩ := List.mem_map.mp h
    obtain ⟨huser, hsong⟩ := Prod.mk.inj hsame
    have := List.any_eq_false.mp hnew j hj
    simp [isBetween, huser, hsong] at this
  | changeInteraction user song change hkeeps _ =>
    refine ⟨husers, hartists, halbums, hplaylists, hsongs, ?_⟩
    rw [map_changed fun i => Prod.ext (hkeeps i).1 (hkeeps i).2]
    exact hinteractions
  | addPlaylist row rules hid _ _ _ =>
    refine ⟨husers, hartists, halbums, ?_, hsongs, hinteractions⟩
    rw [List.map_append, List.map_singleton, hid]
    exact hplaylists.add
  | changePlaylist row change _ hkeeps _ _ =>
    refine ⟨husers, hartists, halbums, ?_, hsongs, hinteractions⟩
    rw [map_changed fun r => (hkeeps r).1]
    exact hplaylists
  | dropPlaylist id user =>
    exact ⟨husers, hartists, halbums, hplaylists.sublist (List.filter_sublist.map _), hsongs,
      hinteractions⟩

theorem isSome_find?_append {α : Type} {test : α → Bool} {rows : List α} (more : List α)
    (h : (rows.find? test).isSome) : ((rows ++ more).find? test).isSome := by
  rw [List.find?_append, Option.isSome_or, h, Bool.true_or]

theorem Linked.empty : Linked .empty := by
  constructor <;> exact fun _ h => nomatch h

theorem Step.linked (h : Step c owner d) (hc : c.Linked) : d.Linked := by
  obtain ⟨halbum, hsong, hsong', huser, hplayed, howner⟩ := hc
  cases h with
  | addUser name time _ =>
    exact ⟨halbum, hsong, hsong', fun i hi => isSome_find?_append _ (huser i hi), hplayed,
      fun row hrow => isSome_find?_append _ (howner row hrow)⟩
  | addArtist name time _ =>
    exact ⟨fun row hrow => isSome_find?_append _ (halbum row hrow), hsong,
      fun row hrow => isSome_find?_append _ (hsong' row hrow), huser, hplayed, howner⟩
  | addAlbum artistId name time _ hartist =>
    refine ⟨List.forall_mem_append.mpr ⟨halbum, ?_⟩,
      fun row hrow => isSome_find?_append _ (hsong row hrow), hsong', huser, hplayed, howner⟩
    exact List.forall_mem_singleton.mpr hartist
  | addSong row _ _ hthis hthis' _ _ _ =>
    exact ⟨halbum, List.forall_mem_append.mpr ⟨hsong, List.forall_mem_singleton.mpr hthis⟩,
      List.forall_mem_append.mpr ⟨hsong', List.forall_mem_singleton.mpr hthis'⟩, huser,
      fun i hi => isSome_find?_append _ (hplayed i hi), howner⟩
  | dropSong id =>
    refine ⟨halbum, fun row hrow => hsong row (List.mem_of_mem_filter hrow),
      fun row hrow => hsong' row (List.mem_of_mem_filter hrow),
      fun i hi => huser i (List.mem_of_mem_filter hi), fun i hi => ?_, howner⟩
    obtain ⟨hi, hne⟩ := List.mem_filter.mp hi
    obtain ⟨row, hrow, hid⟩ := List.find?_isSome.mp (hplayed i hi)
    refine List.find?_isSome.mpr ⟨row, List.mem_filter.mpr ⟨hrow, ?_⟩, hid⟩
    rw [beq_iff_eq.mp hid]
    exact hne
  | addInteraction i _ hthis hthis' _ =>
    exact ⟨halbum, hsong, hsong',
      List.forall_mem_append.mpr ⟨huser, List.forall_mem_singleton.mpr hthis⟩,
      List.forall_mem_append.mpr ⟨hplayed, List.forall_mem_singleton.mpr hthis'⟩, howner⟩
  | changeInteraction user song change hkeeps _ =>
    refine ⟨halbum, hsong, hsong', ?_, ?_, howner⟩
    · apply forall_changed huser
      intro i hi
      rw [(hkeeps i).1]
      exact huser i hi
    · apply forall_changed hplayed
      intro i hi
      rw [(hkeeps i).2]
      exact hplayed i hi
  | addPlaylist row rules _ hthis _ _ =>
    exact ⟨halbum, hsong, hsong', huser, hplayed,
      List.forall_mem_append.mpr ⟨howner, List.forall_mem_singleton.mpr hthis⟩⟩
  | changePlaylist row change _ hkeeps _ _ =>
    refine ⟨halbum, hsong, hsong', huser, hplayed, forall_changed howner fun r hr => ?_⟩
    rw [(hkeeps r).2]
    exact howner r hr
  | dropPlaylist id user =>
    exact ⟨halbum, hsong, hsong', huser, hplayed,
      fun row hrow => howner row (List.mem_of_mem_filter hrow)⟩

theorem Folded.empty : Folded .empty := by
  constructor <;> exact fun _ h => nomatch h

theorem Step.folded (h : Step c owner d) (hc : c.Folded) : d.Folded := by
  obtain ⟨hartists, halbums, hsongs⟩ := hc
  cases h with
  | addArtist name time _ =>
    exact ⟨List.forall_mem_append.mpr ⟨hartists, List.forall_mem_singleton.mpr rfl⟩, halbums,
      hsongs⟩
  | addAlbum artistId name time _ _ =>
    exact ⟨hartists, List.forall_mem_append.mpr ⟨halbums, List.forall_mem_singleton.mpr rfl⟩,
      hsongs⟩
  | addSong row _ _ _ _ hfolded _ _ =>
    exact ⟨hartists, halbums,
      List.forall_mem_append.mpr ⟨hsongs, List.forall_mem_singleton.mpr hfolded⟩⟩
  | dropSong id =>
    exact ⟨hartists, halbums, fun row hrow => hsongs row (List.mem_of_mem_filter hrow)⟩
  | _ => exact ⟨hartists, halbums, hsongs⟩

/-- All times that rules compare were written by the database. -/
structure Dated (c : Catalogue) : Prop where
  songs : ∀ row ∈ c.songs, row.IsDated
  interactions : ∀ i ∈ c.interactions, Timestamp.IsStamp i.updatedAt

theorem Dated.empty : Dated .empty := by
  constructor <;> exact fun _ h => nomatch h

theorem Step.dated (h : Step c owner d) (hc : c.Dated) : d.Dated := by
  obtain ⟨hsongs, hinteractions⟩ := hc
  cases h with
  | addSong row _ _ _ _ _ hdated _ =>
    exact ⟨List.forall_mem_append.mpr ⟨hsongs, List.forall_mem_singleton.mpr hdated⟩,
      hinteractions⟩
  | dropSong id =>
    exact ⟨fun row hrow => hsongs row (List.mem_of_mem_filter hrow),
      fun i hi => hinteractions i (List.mem_of_mem_filter hi)⟩
  | addInteraction i _ _ _ hstamp =>
    exact ⟨hsongs,
      List.forall_mem_append.mpr ⟨hinteractions, List.forall_mem_singleton.mpr hstamp⟩⟩
  | changeInteraction user song change _ hchange =>
    refine ⟨hsongs, forall_changed hinteractions fun i hi => ?_⟩
    rcases hchange i with hsame | hstamp
    · rw [hsame]
      exact hinteractions i hi
    · exact hstamp
  | _ => exact ⟨hsongs, hinteractions⟩

theorem Distinct.eq_of_playlist? (h : c.Distinct) {row other : PlaylistRow}
    (hrow : c.playlist? row.id = some row) (hother : other ∈ c.playlists)
    (hid : other.id = row.id) : other = row :=
  List.inj_on_of_nodup_map h.playlists.nodup hother (List.mem_of_find?_eq_some hrow) hid

theorem Step.readable (h : Step c owner d) (hdistinct : c.Distinct) (hc : c.Readable) :
    d.Readable := by
  cases h with
  | addPlaylist row rules _ _ _ hrules =>
    exact List.forall_mem_append.mpr ⟨hc, List.forall_mem_singleton.mpr ⟨rules, hrules⟩⟩
  | changePlaylist row change hrow _ _ hholds =>
    intro new hnew
    obtain ⟨old, hold, rfl⟩ := List.mem_map.mp hnew
    obtain ⟨rules, hrules⟩ := hc old hold
    split
    case isTrue hid =>
      obtain rfl := hdistinct.eq_of_playlist? hrow hold (beq_iff_eq.mp hid)
      exact hholds rules hrules
    case isFalse => exact ⟨rules, hrules⟩
  | dropPlaylist id user => exact fun row hrow => hc row (List.mem_of_mem_filter hrow)
  | _ => exact hc

theorem Invariant.empty : Invariant .empty :=
  ⟨.empty, .empty, .empty, fun _ h => nomatch h⟩

theorem Step.invariant (h : Step c owner d) (hc : c.Invariant) : d.Invariant :=
  ⟨h.distinct hc.distinct, h.linked hc.linked, h.folded hc.folded,
    h.readable hc.distinct hc.readable⟩

theorem Reachable.foldl {changes : List Change} (htyped : ∀ change ∈ changes, change.Typed)
    (hc : Reachable c) : Reachable (changes.foldl (fun c change => change.apply c) c) := by
  induction changes generalizing c with
  | nil => exact hc
  | cons change rest ih =>
    obtain ⟨hchange, hrest⟩ := List.forall_mem_cons.mp htyped
    exact ih hrest (.change change hchange hc)

/-- One song with the id `song`, and a user, from the changes that make them. -/
def ofSong (title album artist : String) : Catalogue :=
  let changes : List Change := [.createUser ⟨0, 0⟩ "user", .createArtist ⟨0, 0⟩ ⟨artist⟩,
    .createAlbum ⟨0, 0⟩ ⟨album, 1⟩,
    .createSong ⟨0, 0⟩ ⟨title, .ofInt 1, none, 1, "path", 1, 1⟩ "song"]
  changes.foldl (fun c change => change.apply c) .empty

theorem reachable_ofSong (title album artist : String) : (ofSong title album artist).Reachable :=
  .foldl (by simp [Change.Typed]) .empty

theorem Moves.invariant (h : Moves c owner d) (hc : c.Invariant) : d.Invariant := by
  rcases h with rfl | hstep
  · exact hc
  · exact hstep.invariant hc

theorem Reachable.invariant (h : Reachable c) : c.Invariant := by
  induction h with
  | empty => exact .empty
  | change change htyped _ ih => exact (Change.apply_moves htyped _).invariant ih

/-- What holds at first and is preserved by each step holds of every reachable catalogue. -/
theorem Reachable.holds {P : Catalogue → Prop} (hempty : P .empty)
    (hstep : ∀ {c d owner}, Step c owner d → c.Distinct → P c → P d) (h : Reachable c) : P c := by
  induction h with
  | empty => exact hempty
  | @change c change htyped hc ih =>
    rcases Change.apply_moves htyped c with hsame | hmoved
    · rw [hsame]
      exact ih
    · exact hstep hmoved hc.invariant.distinct ih

theorem Reachable.dated (h : Reachable c) : c.Dated :=
  h.holds .empty fun hstep _ => hstep.dated

end Catalogue

end Setlist
