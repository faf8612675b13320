import Setlist.Proofs.Catalogue.Evaluation
import Setlist.Proofs.Catalogue.Failures
import Setlist.Proofs.Catalogue.Isolation

/-! # Looking up lists of songs

A list of ids gives the songs that exist, each where its id comes first, however the list is cut
into parts. Only a play count past the integers of the database keeps them from being handed out.
-/

namespace Setlist

theorem nodup_eraseDups {α : Type} [BEq α] [LawfulBEq α] : ∀ items : List α, items.eraseDups.Nodup
  | [] => List.nodup_nil
  | item :: rest => by
    have hshorter := List.length_filter_le (fun other => !other == item) rest
    rw [List.eraseDups_cons]
    refine List.nodup_cons.mpr ⟨fun hmem => ?_, nodup_eraseDups _⟩
    have hkept := (List.mem_filter.mp (List.mem_eraseDups.mp hmem)).2
    simp at hkept
termination_by items => items.length

namespace Songs

open Catalogue

variable {c : Catalogue} {viewer : Option Int}

theorem length_le_of_mem_chunks {α : Type} {size : Nat} {items part : List α} (hsize : 0 < size)
    (h : part ∈ chunks size items) : part.length ≤ size := by
  fun_induction chunks size items with
  | case1 items hwhole =>
    obtain rfl := List.mem_singleton.mp h
    exact hwhole.resolve_left hsize.ne'
  | case2 items _ ih =>
    rcases List.mem_cons.mp h with rfl | hrest
    · exact List.length_take_le size items
    · exact ih hrest

theorem takeInOrder_filter {found : List Song} {id : String} (h : ∀ song ∈ found, song.id ≠ id)
    (ids : List String) :
    takeInOrder (ids.filter fun other => !other == id) found = takeInOrder ids found := by
  induction ids generalizing found with
  | nil => rfl
  | cons other rest ih =>
    by_cases hother : other = id
    · have hnone : found.find? (·.id == other) = none := by
        rw [List.find?_eq_none]
        simpa [hother] using h
      rw [List.filter_cons_of_neg (by simp [hother]), ih h, takeInOrder, hnone]
    · rw [List.filter_cons_of_pos (by simp [hother]), takeInOrder, takeInOrder, ih h]
      split
      · rw [ih fun song hsong => h song (List.mem_of_mem_filter hsong)]
      · rfl

theorem takeInOrder_eraseDups : ∀ (ids : List String) (found : List Song),
    takeInOrder ids.eraseDups found = takeInOrder ids found
  | [], _ => rfl
  | id :: rest, found => by
    have hshorter := List.length_filter_le (fun other => !other == id) rest
    rw [List.eraseDups_cons, takeInOrder, takeInOrder]
    split
    case h_1 song _ =>
      have hgone : ∀ other ∈ found.filter (·.id != id), other.id ≠ id := by simp
      rw [takeInOrder_eraseDups, takeInOrder_filter hgone]
    case h_2 hnone =>
      have hgone : ∀ other ∈ found, other.id ≠ id := by simpa using hnone
      rw [takeInOrder_eraseDups, takeInOrder_filter hgone]
termination_by ids => ids.length

/-- Any list of ids gives the songs that its ids show, each once and where it comes first. -/
theorem fetch_eq_eraseDups (hc : c.Invariant) (size : Nat) (ids : List String) :
    fetch size c viewer ids = ids.eraseDups.filterMap (shown c viewer) := by
  rw [fetch, ← takeInOrder_eraseDups]
  refine takeInOrder_eq (nodup_eraseDups ids)
    (fun song hsong => ((mem_found hc size ids).mp hsong).2) fun id hid song hsong => ?_
  rw [mem_found hc, shown_id hsong]
  exact ⟨List.mem_eraseDups.mp hid, hsong⟩

/-- What a viewer did with a song: how often it was played, and whether it is liked. -/
inductive Treats (c : Catalogue) (viewer : Option Int) (id : String) : Int → Bool → Prop
  | touched {i : Interaction} : i ∈ c.interactions → viewer = some i.userId → i.songId = id →
      Treats c viewer id i.playCount i.liked
  | untouched : (∀ i ∈ c.interactions, viewer = some i.userId → i.songId ≠ id) →
      Treats c viewer id 0 false

/-- The song of a row, with the names of its album and its artist and what the viewer did. -/
inductive Presents (c : Catalogue) (viewer : Option Int) (row : SongRow) : Song → Prop
  | of {album : AlbumRow} {artist : ArtistRow} {playCount : Int} {liked : Bool} : row ∈ c.songs →
      album ∈ c.albums → album.id = row.albumId → artist ∈ c.artists → artist.id = row.artistId →
      Treats c viewer row.id playCount liked →
      Presents c viewer row ⟨row.id, row.title, row.length, row.track, row.disc, row.path,
        row.albumId, album.name, row.artistId, artist.name, playCount, liked, row.createdAt,
        row.updatedAt⟩

theorem treats_interaction? (hc : c.Invariant) (id : String) :
    Treats c viewer id (((c.interaction? (viewer.getD 0) id).map (·.playCount)).getD 0)
      (((c.interaction? (viewer.getD 0) id).map (·.liked)).getD false) := by
  cases viewer with
  | none =>
    rw [Option.getD_none, hc.interaction?_zero]
    exact .untouched nofun
  | some user =>
    rw [Option.getD_some]
    cases hfound : c.interaction? user id with
    | some i =>
      obtain ⟨hi, huser, hsong⟩ := (interaction?_eq_some hc.distinct).mp hfound
      exact .touched hi (congrArg some huser.symm) hsong
    | none =>
      refine .untouched fun i hi huser hsong => ?_
      have hsome := (interaction?_eq_some hc.distinct).mpr ⟨hi, (Option.some.inj huser).symm, hsong⟩
      cases hfound.symm.trans hsome

theorem presents_of_shown (hc : c.Invariant) {id : String} {song : Song}
    (h : shown c viewer id = some song) : ∃ row, Presents c viewer row song := by
  obtain ⟨row, hrow, hsong⟩ := Option.bind_eq_some_iff.mp h
  refine ⟨row, ?_⟩
  unfold Row.toSong? at hsong
  split at hsong
  case h_2 => cases hsong
  case h_1 album artist halbum hartist =>
    obtain rfl := Option.some.inj hsong
    exact .of (List.mem_of_find?_eq_some hrow) (List.mem_of_find?_eq_some halbum)
      (by simpa using List.find?_some halbum) (List.mem_of_find?_eq_some hartist)
      (by simpa using List.find?_some hartist) (treats_interaction? hc row.id)

theorem isPresent_eq_isSome_shown (hc : c.Invariant) (viewer : Option Int) (id : String) :
    isPresent c id = (shown c viewer id).isSome := by
  rw [isPresent]
  cases hrow : c.song? id with
  | none => simp [shown, hrow]
  | some row =>
    obtain ⟨song, hsong⟩ := exists_shown hc viewer (List.mem_of_find?_eq_some hrow)
    have hid : row.id = id := by simpa using List.find?_some hrow
    rw [← hid, hsong]
    rfl

theorem map_id_filterMap_present (hc : c.Invariant) (viewer : Option Int) (ids : List String) :
    (ids.filterMap (shown c viewer)).map (·.id) = ids.filter (isPresent c) := by
  rw [map_id_filterMap]
  exact List.filter_congr fun id _ => (isPresent_eq_isSome_shown hc viewer id).symm

/-- Some song of the list was played more often by its viewer than the database can count. -/
def Overplayed (c : Catalogue) (viewer : Option Int) (ids : List String) : Prop :=
  ∃ i ∈ c.interactions, viewer = some i.userId ∧ i.songId ∈ ids ∧
    Interaction.countLimit ≤ i.playCount

theorem overplayed_iff (hc : c.Invariant) {ids : List String} {songs : List Song}
    (hsongs : ∀ song, song ∈ songs ↔ song.id ∈ ids ∧ shown c viewer song.id = some song) :
    (songs.any fun song => Interaction.countLimit ≤ song.playCount) = true ↔
      Overplayed c viewer ids := by
  rw [List.any_eq_true]
  constructor
  · rintro ⟨song, hsong, hcount⟩
    obtain ⟨hid, hshown⟩ := (hsongs song).mp hsong
    obtain ⟨row, hpresents⟩ := presents_of_shown hc hshown
    cases hpresents with
    | of _ _ _ _ _ htreats =>
      cases htreats with
      | touched hi huser hrow => exact ⟨_, hi, huser, hrow ▸ hid, decide_eq_true_iff.mp hcount⟩
      | untouched =>
        have hnone : ¬Interaction.countLimit ≤ 0 := by decide
        exact absurd (decide_eq_true_iff.mp hcount) hnone
  · rintro ⟨i, hi, rfl, hid, hcount⟩
    obtain ⟨row, hrow⟩ := Option.isSome_iff_exists.mp (hc.linked.interactionSong i hi)
    have hrowId : row.id = i.songId := by simpa using List.find?_some hrow
    obtain ⟨song, hshown⟩ := exists_shown hc (some i.userId) (List.mem_of_find?_eq_some hrow)
    rw [hrowId] at hshown
    obtain ⟨-, -, -, hplays⟩ := shown_fields hshown
    have hfound : c.interaction? i.userId i.songId = some i :=
      (interaction?_eq_some hc.distinct).mpr ⟨hi, rfl, rfl⟩
    rw [Option.getD_some, hfound] at hplays
    refine ⟨song, (hsongs song).mpr ?_, decide_eq_true_iff.mpr (hplays ▸ hcount)⟩
    rw [shown_id hshown]
    exact ⟨hid, hshown⟩

theorem fetch_slice (hc : c.Invariant) {e : Expression} (he : e.CoveredBy e.joins)
    (viewer : Option Int) (order : SortOrder) (page : PageRequest) (now : Instant) (size : Nat) :
    (c.slice e order page now).Nodup ∧
      (fetch size c viewer (c.slice e order page now)).map (·.id) = c.slice e order page now := by
  have hperm := ids_listing hc he order now
  have hnodup := (slice_sublist page).nodup (hperm.nodup_iff.mpr (nodup_matched hc he))
  refine ⟨hnodup, ?_⟩
  rw [fetch_eq hc size hnodup]
  refine map_id_filterMap_shown fun id hid => ?_
  have hmatched := hperm.mem_iff.mp ((slice_sublist page).subset hid)
  obtain ⟨song, hsong, rfl, -⟩ := (mem_matched hc he).mp hmatched
  exact exists_shown hc viewer hsong

/-- A list of ids gives the songs that exist, once each and where their ids come first, with the
names of their albums and artists and what the viewer did, whatever the size of the parts in which
they are looked up; and parts of fewer ids than a query can bind leave room for the viewer. The
songs are handed out unless the viewer played one of them too often to be counted. On a page no id
is without its song. -/
theorem fetch_in_order (hc : c.Reachable) (viewer : Option Int) (ids : List String) :
    ∃ songs : List Song,
      songs.map (·.id) = ids.eraseDups.filter (isPresent c) ∧
      (∀ song ∈ songs, ∃ row, Presents c viewer row song) ∧
      (∀ size, fetch size c viewer ids = songs ∧
        (¬Overplayed c viewer ids → readable (fetch size c viewer ids) = .ok songs) ∧
        (Overplayed c viewer ids →
          readable (fetch size c viewer ids) = .error (.database .countTooLarge))) ∧
      (∀ size, 0 < size → size < Selection.mostValues → ∀ part ∈ chunks size ids,
        part.length + 1 ≤ Selection.mostValues) ∧
      ∀ user groups e, GroupRecord.compileStrict user groups = .ok e → ∀ order page now size,
        (c.slice e order page now).Nodup ∧
        (fetch size c (some user) (c.slice e order page now)).map (·.id) =
          c.slice e order page now := by
  have hinv := hc.invariant
  have hsongs : ∀ song, song ∈ ids.eraseDups.filterMap (shown c viewer) ↔
      song.id ∈ ids ∧ shown c viewer song.id = some song := by
    intro song
    rw [List.mem_filterMap]
    constructor
    · rintro ⟨id, hid, hshown⟩
      rw [shown_id hshown]
      exact ⟨List.mem_eraseDups.mp hid, hshown⟩
    · rintro ⟨hid, hshown⟩
      exact ⟨song.id, List.mem_eraseDups.mpr hid, hshown⟩
  refine ⟨ids.eraseDups.filterMap (shown c viewer), ?_, ?_, fun size => ?_, ?_, ?_⟩
  · exact map_id_filterMap_present hinv viewer _
  · exact fun song hsong => presents_of_shown hinv ((hsongs song).mp hsong).2
  · have hplays := overplayed_iff hinv hsongs
    rw [fetch_eq_eraseDups hinv, readable]
    exact ⟨rfl, fun hcounted => if_neg (mt hplays.mp hcounted), fun hover =>
      if_pos (hplays.mpr hover)⟩
  · exact fun size hsize hfew part hpart =>
      Nat.succ_le_of_lt ((length_le_of_mem_chunks hsize hpart).trans_lt hfew)
  · exact fun user groups e he order page now size =>
      fetch_slice hinv (GroupRecord.coveredBy_of_compileStrict he) (some user) order page now size

/-- The song is given once, where its id comes first, though the parts hold one id each. -/
theorem fetch_in_order_repeated : ∃ songs,
    readable (fetch 1 (playedSong 1) (some 1) ["gone", "song", "song"]) = .ok songs ∧
      songs.map (·.id) = ["song"] ∧
      ∀ song ∈ songs, ∃ row, Presents (playedSong 1) (some 1) row song := by
  have hc : (playedSong 1).Reachable :=
    reachable_playedSong (by decide : ((0 : Nat) : Int) < Interaction.countLimit)
  obtain ⟨songs, hids, hpresents, hfetch, -, -⟩ :=
    fetch_in_order hc (some 1) ["gone", "song", "song"]
  have hcounted : ¬Overplayed (playedSong 1) (some 1) ["gone", "song", "song"] := by
    rintro ⟨i, hi, -, -, hcount⟩
    obtain rfl := List.mem_singleton.mp hi
    exact absurd hcount (by decide)
  refine ⟨songs, (hfetch 1).2.1 hcounted, hids.trans ?_, hpresents⟩
  decide +kernel

/-- One play more than the database can count, and the song that exists is not handed out. -/
theorem fetch_overplayed : (playedSong (2 ^ 63)).Reachable ∧
    isPresent (playedSong (2 ^ 63)) "song" = true ∧
    many (playedSong (2 ^ 63)) 1 ["song"] = .error (.database .countTooLarge) := by
  have hc : (playedSong (2 ^ 63)).Reachable :=
    reachable_playedSong (by decide : ((2 ^ 63 - 1 : Nat) : Int) < Interaction.countLimit)
  refine ⟨hc, isSome_song?_playedSong (2 ^ 63), ?_⟩
  rw [many, fetch_eq hc.invariant chunkSize (List.nodup_singleton "song"), readable]
  exact if_pos (by decide +kernel)

end Songs

end Setlist
