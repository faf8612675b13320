import Mathlib.Data.List.Sort
import Setlist.Catalogue.Evaluate
import Setlist.Proofs.Catalogue.Hydration
import Setlist.Proofs.Query.Limits
import Setlist.Proofs.Query.Ranking

/-! # What a user can see

Users share the songs, but what a user did with them and the playlists of a user are the
user's own. Reads as a user depend on the shared rows and on the user's own ones alone, in
whatever order these are kept, and changes by others leave both as they are.
-/

namespace Setlist

namespace Catalogue

variable {c d : Catalogue} {user : Int}

/-- The catalogues differ at most in rows that belong to other users. -/
structure AlikeFor (user : Int) (c d : Catalogue) : Prop where
  artists : c.artists = d.artists
  albums : c.albums = d.albums
  songs : c.songs = d.songs
  interactions : ∀ i : Interaction, i.userId = user → (i ∈ c.interactions ↔ i ∈ d.interactions)
  playlists : ∀ row : PlaylistRow, row.ownerId = user → (row ∈ c.playlists ↔ row ∈ d.playlists)

theorem AlikeFor.refl (user : Int) (c : Catalogue) : AlikeFor user c c :=
  ⟨rfl, rfl, rfl, fun _ _ => Iff.rfl, fun _ _ => Iff.rfl⟩

theorem AlikeFor.trans {e : Catalogue} (h : c.AlikeFor user d) (h' : d.AlikeFor user e) :
    c.AlikeFor user e where
  artists := h.artists.trans h'.artists
  albums := h.albums.trans h'.albums
  songs := h.songs.trans h'.songs
  interactions i hi := (h.interactions i hi).trans (h'.interactions i hi)
  playlists row hrow := (h.playlists row hrow).trans (h'.playlists row hrow)

theorem pairwise_mergeSort {α : Type} {order : α → α → Ordering} (htrans : Std.TransCmp order)
    (rows : List α) : (rows.mergeSort fun a b => order a b != .gt).Pairwise
      fun a b => (order a b).isLE = true := by
  have hle (a b : α) : (order a b != .gt) = (order a b).isLE := by cases order a b <;> rfl
  have htotal (a b : α) : ((order a b).isLE || (order b a).isLE) = true := by
    have hswap : order b a = (order a b).swap := Std.OrientedCmp.eq_swap
    rw [hswap]
    cases order a b <;> rfl
  simp only [hle]
  exact List.pairwise_mergeSort (fun _ _ _ => Std.TransCmp.isLE_trans) htotal rows

/-- Lists of the same rows are the same once they are sorted, unless rows tie. -/
theorem mergeSort_eq_of_perm {α : Type} {order : α → α → Ordering} (htrans : Std.TransCmp order)
    {rows others : List α} (hperm : rows.Perm others)
    (hties : ∀ a ∈ rows, ∀ b ∈ rows, order a b = .eq → a = b) :
    rows.mergeSort (fun a b => order a b != .gt) =
      others.mergeSort fun a b => order a b != .gt := by
  refine List.Perm.eq_of_pairwise (fun a b ha hb hab hba => ?_) (pairwise_mergeSort htrans rows)
    (pairwise_mergeSort htrans others)
    ((List.mergeSort_perm _ _).trans (hperm.trans (List.mergeSort_perm _ _).symm))
  refine hties a (List.mem_mergeSort.mp ha) b (hperm.mem_iff.mpr (List.mem_mergeSort.mp hb)) ?_
  exact Std.OrientedCmp.isLE_antisymm hab hba

theorem find?_eq_some_iff_key {α β : Type} {key : α → β} {test : α → Bool} {k : β} {rows : List α}
    (hnodup : (rows.map key).Nodup) (htest : ∀ row, test row = true ↔ key row = k) {row : α} :
    rows.find? test = some row ↔ row ∈ rows ∧ key row = k := by
  rw [← Option.mem_toList, ← filter_eq_find? hnodup htest, List.mem_filter, htest]

theorem interaction?_eq_some (hc : c.Distinct) {song : String} {i : Interaction} :
    c.interaction? user song = some i ↔ i ∈ c.interactions ∧ i.userId = user ∧ i.songId = song := by
  have hkey (i : Interaction) : (i.userId == user && i.songId == song) = true ↔
      (i.userId, i.songId) = (user, song) := by simp
  rw [interaction?, find?_eq_some_iff_key hc.interactions hkey, Prod.mk.injEq]

theorem playlist?_eq_some (hc : c.Distinct) {id : Int} {row : PlaylistRow} :
    c.playlist? id = some row ↔ row ∈ c.playlists ∧ row.id = id :=
  find?_eq_some_iff_key hc.playlists.nodup fun _ => beq_iff_eq

theorem find?_eq_of_perm {α β : Type} {key : α → β} {test : α → Bool} {k : β} {rows others : List α}
    (hnodup : (rows.map key).Nodup) (htest : ∀ row, test row = true ↔ key row = k)
    (hperm : rows.Perm others) : rows.find? test = others.find? test := by
  ext row
  rw [find?_eq_some_iff_key hnodup htest, hperm.mem_iff,
    find?_eq_some_iff_key ((hperm.map key).nodup_iff.mp hnodup) htest]

theorem nodup_joined (hc : c.Invariant) (joins : Joins) (user : Int) :
    ((c.joined joins user).map (·.song.id)).Nodup := by
  rw [joined_eq hc, List.map_map]
  exact hc.distinct.songs

theorem nodup_ids (hc : c.Invariant) (s : Selection) : (s.ids c).Nodup := by
  have hperm : (s.ids c).Perm ((s.rows c).map (·.song.id)) := (List.mergeSort_perm _ _).map _
  rw [hperm.nodup_iff]
  exact (List.filter_sublist.map _).nodup (nodup_joined hc s.joins s.user)

/-- A selection draws the same songs from the same rows, in whatever order. -/
theorem run_congr {s : Selection} (hc : c.Invariant)
    (hperm : (c.joined s.joins s.user).Perm (d.joined s.joins s.user)) :
    s.ids c = s.ids d ∧ s.count c = s.count d := by
  have hrows : (s.rows c).Perm (s.rows d) := hperm.filter s.admits
  refine ⟨congrArg (List.map _) (mergeSort_eq_of_perm (Row.transCmp s.order) hrows ?_),
    hrows.length_eq⟩
  intro a ha b hb hsame
  exact List.inj_on_of_nodup_map (nodup_joined hc s.joins s.user) (List.mem_of_mem_filter ha)
    (List.mem_of_mem_filter hb) (Row.id_eq_of_compare hsame)

/-- The catalogues have the same songs and the same rows of a user, in whatever order. -/
structure Rearranged (user : Int) (c d : Catalogue) : Prop where
  artists : c.artists.Perm d.artists
  albums : c.albums.Perm d.albums
  songs : c.songs.Perm d.songs
  interactions : ∀ i : Interaction, i.userId = user → (i ∈ c.interactions ↔ i ∈ d.interactions)

namespace Rearranged

variable (h : Rearranged user c d) (hc : c.Invariant) (hd : d.Invariant)

include h hc hd

theorem interaction?_eq (song : String) : c.interaction? user song = d.interaction? user song := by
  ext i
  rw [interaction?_eq_some hc.distinct, interaction?_eq_some hd.distinct]
  exact and_congr_left fun hkey => h.interactions i hkey.1

theorem view_eq (song : SongRow) : c.view user song = d.view user song := by
  have halbum : c.album? song.albumId = d.album? song.albumId :=
    find?_eq_of_perm hc.distinct.albums.nodup (fun _ => beq_iff_eq) h.albums
  have hartist : c.artist? song.artistId = d.artist? song.artistId :=
    find?_eq_of_perm hc.distinct.artists.nodup (fun _ => beq_iff_eq) h.artists
  rw [view, view, h.interaction?_eq hc hd, halbum, hartist]

theorem joined_perm (joins : Joins) : (c.joined joins user).Perm (d.joined joins user) := by
  rw [Catalogue.joined_eq hc, Catalogue.joined_eq hd]
  have hrow : ∀ song ∈ c.songs, (c.view user song).restrict joins =
      (d.view user song).restrict joins := fun song _ => congrArg _ (h.view_eq hc hd song)
  rw [List.map_congr_left hrow]
  exact h.songs.map _

theorem many_eq {ids : List String} (hids : ids.Nodup) :
    Songs.many c user ids = Songs.many d user ids := by
  have hshown : Songs.shown c (some user) = Songs.shown d (some user) := by
    funext id
    have hsong : c.song? id = d.song? id :=
      find?_eq_of_perm hc.distinct.songs (fun _ => beq_iff_eq) h.songs
    rw [Songs.shown, Songs.shown, hsong]
    exact congrArg _ (funext fun song => congrArg Row.toSong? (h.view_eq hc hd song))
  rw [Songs.many, Songs.many, Songs.fetch_eq hc _ hids, Songs.fetch_eq hd _ hids, hshown]

end Rearranged

/-- The catalogues have the same songs, and the user has the same interactions with them. -/
structure SameSongs (user : Int) (c d : Catalogue) : Prop where
  artists : c.artists = d.artists
  albums : c.albums = d.albums
  songs : c.songs = d.songs
  interactions : ∀ i : Interaction, i.userId = user → (i ∈ c.interactions ↔ i ∈ d.interactions)

namespace SameSongs

theorem rearranged (h : SameSongs user c d) : Rearranged user c d :=
  ⟨.of_eq h.artists, .of_eq h.albums, .of_eq h.songs, h.interactions⟩

variable (h : SameSongs user c d) (hc : c.Invariant) (hd : d.Invariant)

include h hc hd

theorem joined_eq (joins : Joins) : c.joined joins user = d.joined joins user := by
  rw [Catalogue.joined_eq hc, Catalogue.joined_eq hd, h.songs]
  exact List.map_congr_left fun song _ => congrArg _ (h.rearranged.view_eq hc hd song)

theorem many_eq (ids : List String) : Songs.many c user ids = Songs.many d user ids := by
  have hamong : Songs.among c (some user) = Songs.among d (some user) := by
    funext part
    rw [Songs.among, Songs.among, Songs.viewed, Songs.viewed, Option.getD_some,
      h.joined_eq hc hd]
  rw [Songs.many, Songs.many, Songs.fetch, Songs.fetch, hamong]

theorem evaluate_eq {e : Expression} (he : e.user = user) (plan : Plan) (order : SortOrder)
    (page : PageRequest) (now : Instant) :
    c.evaluate plan e order page now = d.evaluate plan e order page now := by
  subst he
  have hseen (s : Selection) (hs : s.user = e.user) : s.SeesAlike c d :=
    ⟨h.artists, h.albums, h.songs, by rw [hs, h.joined_eq hc hd]⟩
  have hrows (s : Selection) (hs : s.user = e.user) : s.rows c = s.rows d := by
    rw [Selection.rows, Selection.rows, hs, h.joined_eq hc hd]
  have hcounting := Selection.fault?_congr (hseen (counting e order now) rfl) plan none
  have hlisting := Selection.fault?_congr (hseen (listing e order now) rfl) plan (some page)
  simp only [evaluate, hcounting, hlisting, h.many_eq hc hd, Selection.ids, Selection.sorted,
    Selection.count, hrows (counting e order now) rfl, hrows (listing e order now) rfl]

end SameSongs

theorem AlikeFor.sameSongs (h : AlikeFor user c d) : SameSongs user c d :=
  ⟨h.artists, h.albums, h.songs, h.interactions⟩

def byRecency (a b : Interaction) : Ordering :=
  (compare b.updatedAt a.updatedAt).then (compare a.songId b.songId)

theorem transCmp_byRecency : Std.TransCmp byRecency := by
  have _ : Std.TransCmp fun a b => compareOn Interaction.updatedAt b a := .opposite
  exact inferInstanceAs (Std.TransCmp (compareLex (fun a b => compareOn Interaction.updatedAt b a)
    (compareOn Interaction.songId)))

def byTitle (a b : SongRow) : Ordering :=
  (compare a.titleFolded b.titleFolded).then (compare a.id b.id)

theorem transCmp_byTitle : Std.TransCmp byTitle :=
  inferInstanceAs (Std.TransCmp (compareLex (compareOn SongRow.titleFolded)
    (compareOn SongRow.id)))

namespace AlikeFor

variable (h : AlikeFor user c d) (hc : c.Invariant) (hd : d.Invariant)

include h hc hd

theorem owned_eq (id : Int) : (c.playlist? id).filter (·.ownerId == user) =
    (d.playlist? id).filter (·.ownerId == user) := by
  ext row
  rw [Option.filter_eq_some_iff, Option.filter_eq_some_iff, playlist?_eq_some hc.distinct,
    playlist?_eq_some hd.distinct, beq_iff_eq]
  exact and_congr_left fun howner => and_congr_left fun _ => h.playlists row howner

theorem perm_interactions (kind : Interaction → Bool) :
    (c.interactions.filter fun i => i.userId == user && kind i).Perm
      (d.interactions.filter fun i => i.userId == user && kind i) := by
  refine (List.perm_ext_iff_of_nodup (hc.distinct.interactions.of_map.filter _)
    (hd.distinct.interactions.of_map.filter _)).mpr fun i => ?_
  rw [List.mem_filter, List.mem_filter, Bool.and_eq_true, beq_iff_eq]
  exact and_congr_left fun hi => h.interactions i hi.1

theorem recentlyPlayed_eq (limit : Option Nat) :
    Interactions.recentlyPlayed c user limit = Interactions.recentlyPlayed d user limit := by
  have hperm := h.perm_interactions hc hd fun i => decide (0 < i.playCount)
  have hsorted : (c.interactions.filter fun i => i.userId == user && decide (0 < i.playCount)
      ).mergeSort Interactions.recencyOrder =
        (d.interactions.filter fun i => i.userId == user && decide (0 < i.playCount)
          ).mergeSort Interactions.recencyOrder := by
    refine mergeSort_eq_of_perm transCmp_byRecency hperm ?_
    intro a ha b hb hsame
    obtain ⟨-, hsong⟩ := Ordering.then_eq_eq.mp hsame
    obtain ⟨ha, hplayed⟩ := List.mem_filter.mp ha
    obtain ⟨hb, hplayed'⟩ := List.mem_filter.mp hb
    rw [Bool.and_eq_true, beq_iff_eq] at hplayed hplayed'
    refine List.inj_on_of_nodup_map hc.distinct.interactions ha hb ?_
    rw [hplayed.1, hplayed'.1, Std.LawfulEqOrd.eq_of_compare hsong]
  simp only [Interactions.recentlyPlayed, hsorted]

theorem favorites_eq : Interactions.favorites c user = Interactions.favorites d user := by
  have hperm := (h.perm_interactions hc hd (·.liked)).flatMap_right fun i =>
    c.songs.filter (·.id == i.songId)
  have hsorted := mergeSort_eq_of_perm transCmp_byTitle hperm fun a ha b hb hsame => by
    obtain ⟨-, hid⟩ := Ordering.then_eq_eq.mp hsame
    obtain ⟨i, -, ha⟩ := List.mem_flatMap.mp ha
    obtain ⟨j, -, hb⟩ := List.mem_flatMap.mp hb
    exact List.inj_on_of_nodup_map hc.distinct.songs (List.mem_of_mem_filter ha)
      (List.mem_of_mem_filter hb) (Std.LawfulEqOrd.eq_of_compare hid)
  rw [Interactions.favorites, Interactions.favorites, ← h.songs, h.sameSongs.many_eq hc hd]
  exact congrArg (fun rows => Songs.many d user (rows.map SongRow.id)) hsorted

theorem ofUser_eq : Playlists.ofUser c user = Playlists.ofUser d user := by
  have hperm : (c.playlists.filter (·.ownerId == user)).Perm
      (d.playlists.filter (·.ownerId == user)) := by
    refine (List.perm_ext_iff_of_nodup (hc.distinct.playlists.nodup.of_map.filter _)
      (hd.distinct.playlists.nodup.of_map.filter _)).mpr fun row => ?_
    rw [List.mem_filter, List.mem_filter, beq_iff_eq]
    exact and_congr_left fun howner => h.playlists row howner
  have horder : Std.TransCmp fun a b => compareLex (compareOn PlaylistRow.updatedAt)
    (compareOn PlaylistRow.id) b a := .opposite
  have hsorted := mergeSort_eq_of_perm horder hperm fun a ha b hb hsame => by
    obtain ⟨-, hid⟩ := Ordering.then_eq_eq.mp hsame
    exact List.inj_on_of_nodup_map hc.distinct.playlists.nodup (List.mem_of_mem_filter ha)
      (List.mem_of_mem_filter hb) (Std.LawfulEqOrd.eq_of_compare hid).symm
  exact congrArg (·.mapM Playlists.ofRow) hsorted

end AlikeFor

/-- Changes to the rows of others leave the rows of an owner as they are. -/
theorem mem_changed_iff {α β : Type} {owner : α → β} {own : β} {test : α → Bool}
    {change : α → α} {rows : List α} (hkeeps : ∀ row, owner (change row) = owner row)
    (htest : ∀ row ∈ rows, test row = true → owner row ≠ own) {row : α} (hrow : owner row = own) :
    row ∈ rows.map (fun r => if test r then change r else r) ↔ row ∈ rows := by
  rw [List.mem_map]
  constructor
  · rintro ⟨old, hold, rfl⟩
    split at hrow
    case isTrue hchanged => exact absurd ((hkeeps old).symm.trans hrow) (htest old hold hchanged)
    case isFalse hsame => rwa [if_neg hsame]
  · intro hmem
    refine ⟨row, hmem, if_neg fun hchanged => ?_⟩
    exact htest row hmem hchanged hrow

theorem mem_append_other_iff {α β : Type} {owner : α → β} {own : β} {rows : List α} {new : α}
    (hnew : owner new ≠ own) {row : α} (hrow : owner row = own) :
    row ∈ rows ↔ row ∈ rows ++ [new] := by
  rw [List.mem_append, List.mem_singleton]
  refine (or_iff_left ?_).symm
  rintro rfl
  exact hnew hrow

theorem Step.alikeFor {owner : Int} (h : Step c (some owner) d) (hc : c.Distinct)
    (hne : owner ≠ user) : AlikeFor user c d := by
  obtain ⟨hartists, halbums, hsongs, hinteractions, hplaylists⟩ := AlikeFor.refl user c
  cases h with
  | addInteraction i _ _ _ _ =>
    exact ⟨hartists, halbums, hsongs, fun _ hrow => mem_append_other_iff hne hrow, hplaylists⟩
  | changeInteraction owner song change hkeeps _ =>
    refine ⟨hartists, halbums, hsongs, fun i hi => ?_, hplaylists⟩
    refine (mem_changed_iff (fun i => (hkeeps i).1) (fun other _ hother => ?_) hi).symm
    rw [isBetween, Bool.and_eq_true, beq_iff_eq] at hother
    rw [hother.1]
    exact hne
  | addPlaylist row rules _ _ _ _ =>
    exact ⟨hartists, halbums, hsongs, hinteractions, fun _ hrow => mem_append_other_iff hne hrow⟩
  | changePlaylist row change hfound hkeeps _ _ =>
    refine ⟨hartists, halbums, hsongs, hinteractions, fun r hr => ?_⟩
    refine (mem_changed_iff (fun r => (hkeeps r).2) (fun other hother hid => ?_) hr).symm
    rwa [hc.eq_of_playlist? hfound hother (beq_iff_eq.mp hid)]
  | dropPlaylist id owner =>
    refine ⟨hartists, halbums, hsongs, hinteractions, fun row hrow => ?_⟩
    rw [List.mem_filter, hrow]
    simp [hne.symm]

/-- Changes by others leave all that a user can see as it is. -/
theorem alikeFor_apply {change : Change} {owner : Int} (htyped : change.Typed) (hc : c.Distinct)
    (howner : change.owner = some owner) (hne : owner ≠ user) :
    AlikeFor user c (change.apply c) := by
  have hmoves := Change.apply_moves htyped c
  rw [howner] at hmoves
  rcases hmoves with hsame | hstep
  · rw [hsame]
    exact .refl user c
  · exact hstep.alikeFor hc hne

end Catalogue

end Setlist
