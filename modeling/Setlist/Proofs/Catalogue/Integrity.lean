import Setlist.Proofs.Catalogue.Hydration

/-! # Integrity of the catalogue

What the tables promise beyond their ids: names and paths are not repeated, lengths are finite
and not negative, names are tidy. Each step keeps this, whatever was asked for, so that it holds
of every reachable catalogue. No user has the id that stands for no viewer.
-/

namespace Setlist

namespace Catalogue

variable {c d : Catalogue} {owner : Option Int}

structure Unrepeated (c : Catalogue) : Prop where
  artistNames : (c.artists.map (·.name)).Nodup
  albumNames : (c.albums.map fun row => (row.artistId, row.name)).Nodup
  songPaths : (c.songs.map (·.path)).Nodup

theorem Unrepeated.empty : Unrepeated .empty :=
  ⟨List.nodup_nil, List.nodup_nil, List.nodup_nil⟩

theorem nodup_map_of_ne {α β : Type} {key : α → β} {rows : List α} {new : α}
    (h : (rows.map key).Nodup) (hnew : ∀ row ∈ rows, key row ≠ key new) :
    ((rows ++ [new]).map key).Nodup := by
  refine nodup_map_append h fun hmem => ?_
  obtain ⟨row, hrow, hkey⟩ := List.mem_map.mp hmem
  exact hnew row hrow hkey

theorem Step.unrepeated (h : Step c owner d) (hc : c.Unrepeated) : d.Unrepeated := by
  obtain ⟨hartists, halbums, hpaths⟩ := hc
  cases h with
  | addArtist name time hname => exact ⟨nodup_map_of_ne hartists hname, halbums, hpaths⟩
  | addAlbum artistId name time hname _ =>
    refine ⟨hartists, nodup_map_of_ne halbums fun row hrow hsame => ?_, hpaths⟩
    obtain ⟨hartist, hsame⟩ := Prod.mk.inj hsame
    exact hname row hrow hartist hsame
  | addSong row _ hpath _ _ _ _ _ => exact ⟨hartists, halbums, nodup_map_of_ne hpaths hpath⟩
  | dropSong id => exact ⟨hartists, halbums, hpaths.sublist (List.filter_sublist.map _)⟩
  | _ => exact ⟨hartists, halbums, hpaths⟩

structure Filled (c : Catalogue) : Prop where
  lengths : ∀ row ∈ c.songs, row.IsTimed
  userNames : ∀ user ∈ c.users, IsTidy user.name
  playlistNames : ∀ row ∈ c.playlists, IsTidy row.name

theorem Filled.empty : Filled .empty := by
  constructor <;> exact fun _ h => nomatch h

theorem Step.filled (h : Step c owner d) (hdistinct : c.Distinct) (hc : c.Filled) : d.Filled := by
  obtain ⟨hlengths, husers, hplaylists⟩ := hc
  cases h with
  | addUser name time hname =>
    exact ⟨hlengths, List.forall_mem_append.mpr ⟨husers, List.forall_mem_singleton.mpr hname⟩,
      hplaylists⟩
  | addSong row _ _ _ _ _ _ htimed =>
    exact ⟨List.forall_mem_append.mpr ⟨hlengths, List.forall_mem_singleton.mpr htimed⟩, husers,
      hplaylists⟩
  | dropSong id =>
    exact ⟨fun row hrow => hlengths row (List.mem_of_mem_filter hrow), husers, hplaylists⟩
  | addPlaylist row rules _ _ hname _ =>
    exact ⟨hlengths, husers,
      List.forall_mem_append.mpr ⟨hplaylists, List.forall_mem_singleton.mpr hname⟩⟩
  | changePlaylist row change hrow _ hname _ =>
    refine ⟨hlengths, husers, fun new hnew => ?_⟩
    obtain ⟨old, hold, rfl⟩ := List.mem_map.mp hnew
    split
    case isTrue hid =>
      obtain rfl := hdistinct.eq_of_playlist? hrow hold (beq_iff_eq.mp hid)
      exact hname (hplaylists old hold)
    case isFalse => exact hplaylists old hold
  | dropPlaylist id user =>
    exact ⟨hlengths, husers, fun row hrow => hplaylists row (List.mem_of_mem_filter hrow)⟩
  | _ => exact ⟨hlengths, husers, hplaylists⟩

theorem Invariant.userId_ne_zero (h : c.Invariant) {i : Interaction} (hi : i ∈ c.interactions) :
    i.userId ≠ 0 := by
  obtain ⟨user, huser, hid⟩ := List.find?_isSome.mp (h.linked.interactionUser i hi)
  have hleast := (h.distinct.users.bounds user.id (List.mem_map_of_mem huser)).1
  rw [beq_iff_eq.mp hid] at hleast
  omega

theorem Invariant.interaction?_zero (h : c.Invariant) (song : String) :
    c.interaction? 0 song = none := by
  refine List.find?_eq_none.mpr fun i hi hkey => h.userId_ne_zero hi ?_
  rw [Bool.and_eq_true, beq_iff_eq] at hkey
  exact hkey.1

end Catalogue

namespace Songs

variable {c : Catalogue} {viewer : Option Int}

theorem mem_of_mem_takeInOrder {ids : List String} {found : List Song} {song : Song}
    (h : song ∈ takeInOrder ids found) : song ∈ found := by
  induction ids generalizing found with
  | nil => cases h
  | cons id rest ih =>
    rw [takeInOrder] at h
    split at h
    case h_1 first hfirst =>
      rcases List.mem_cons.mp h with rfl | hlater
      · exact List.mem_of_find?_eq_some hfirst
      · exact List.mem_of_mem_filter (ih hlater)
    case h_2 => exact ih h

theorem allShown_fetch (hc : c.Invariant) (size : Nat) (ids : List String) :
    AllShown c viewer (fetch size c viewer ids) := by
  intro song hsong
  have hnone : AllShown c viewer [] := fun _ h => nomatch h
  rcases (mem_foldl_among hc hnone).mp (mem_of_mem_takeInOrder hsong) with ⟨-, hshown⟩ | hmem
  · exact hshown
  · cases hmem

theorem untouched_of_shown (hc : c.Invariant) {id : String} {song : Song}
    (h : shown c none id = some song) : song.playCount = 0 ∧ song.liked = false := by
  obtain ⟨row, -, hsong⟩ := Option.bind_eq_some_iff.mp h
  have hnone : (c.view 0 row).interaction = none := hc.interaction?_zero row.id
  unfold Row.toSong? at hsong
  split at hsong
  case h_1 =>
    obtain rfl := Option.some.inj hsong
    simp [hnone]
  case h_2 => cases hsong

end Songs

namespace Catalogue

/-- The tables are in good order: folded forms agree with names, rows refer to rows that exist,
nothing is repeated that must not be, and what stands in a row is what may stand there. -/
structure Integrity (c : Catalogue) : Prop where
  folded : c.Folded
  linked : c.Linked
  unrepeated : c.Unrepeated
  songIds : (c.songs.map (·.id)).Nodup
  interactions : (c.interactions.map fun i => (i.userId, i.songId)).Nodup
  filled : c.Filled
  owners : ∀ i ∈ c.interactions, i.userId ≠ 0
  untouched : ∀ size ids, ∀ song ∈ Songs.fetch size c none ids,
    song.playCount = 0 ∧ song.liked = false

/-- Every catalogue that calls have led to, accepted or refused ones, is in good order. -/
theorem integrity_of_reachable {c : Catalogue} (h : c.Reachable) : c.Integrity where
  folded := h.invariant.folded
  linked := h.invariant.linked
  unrepeated := h.holds .empty fun hstep _ => hstep.unrepeated
  songIds := h.invariant.distinct.songs
  interactions := h.invariant.distinct.interactions
  filled := h.holds .empty Step.filled
  owners _ hi := h.invariant.userId_ne_zero hi
  untouched size ids song hsong :=
    Songs.untouched_of_shown h.invariant (Songs.allShown_fetch h.invariant size ids song hsong)

def ofPlayedSong : Catalogue := (Change.recordPlay ⟨0, 0⟩ 1 "song").apply (ofSong "A" "B" "C")

theorem integrity_of_reachable_ofPlayedSong : ofPlayedSong.Reachable ∧
    ofPlayedSong.interactions.map (·.playCount) = [1] ∧ ofPlayedSong.Integrity := by
  have hreachable : ofPlayedSong.Reachable :=
    .change (.recordPlay ⟨0, 0⟩ 1 "song") trivial (reachable_ofSong "A" "B" "C")
  exact ⟨hreachable, by decide +kernel, integrity_of_reachable hreachable⟩

end Catalogue

end Setlist
