import Setlist.Proofs.Catalogue.Joins

/-! # Handing out songs

Songs are looked up in parts and then put back in the order of their ids. The parts and the
order in which rows are found leave no trace: each id gives its own song, in its own place.
-/

namespace Setlist

namespace Songs

open Catalogue

variable {c : Catalogue} {viewer : Option Int}

def shown (c : Catalogue) (viewer : Option Int) (id : String) : Option Song :=
  (c.song? id).bind fun row => (c.view (viewer.getD 0) row).toSong?

def AllShown (c : Catalogue) (viewer : Option Int) (songs : List Song) : Prop :=
  ∀ song ∈ songs, shown c viewer song.id = some song

theorem toSong?_id {row : Row} {song : Song} (h : row.toSong? = some song) :
    song.id = row.song.id := by
  unfold Row.toSong? at h
  split at h
  · rw [← Option.some.inj h]
  · cases h

theorem shown_id {id : String} {song : Song} (h : shown c viewer id = some song) :
    song.id = id := by
  obtain ⟨row, hrow, hsong⟩ := Option.bind_eq_some_iff.mp h
  rw [toSong?_id hsong]
  exact beq_iff_eq.mp (List.find?_some hrow :)

theorem viewed_eq (hc : c.Invariant) :
    viewed c viewer = c.songs.map (c.view (viewer.getD 0)) := by
  rw [viewed, joined_eq hc]
  rfl

theorem mem_among (hc : c.Invariant) {ids : List String} {song : Song} :
    song ∈ among c viewer ids ↔ song.id ∈ ids ∧ shown c viewer song.id = some song := by
  rw [among, viewed_eq hc]
  simp only [List.mem_filterMap, List.mem_filter, List.mem_map, List.contains_iff_mem]
  constructor
  · rintro ⟨_, ⟨⟨row, hrow, rfl⟩, hid⟩, hsong⟩
    have hshown : shown c viewer row.id = some song :=
      Option.bind_eq_some_iff.mpr ⟨row, song?_of_mem hc hrow, hsong⟩
    rw [toSong?_id hsong]
    exact ⟨hid, hshown⟩
  · rintro ⟨hid, hshown⟩
    obtain ⟨row, hrow, hsong⟩ := Option.bind_eq_some_iff.mp hshown
    rw [toSong?_id hsong] at hid
    exact ⟨_, ⟨⟨row, List.mem_of_find?_eq_some hrow, rfl⟩, hid⟩, hsong⟩

theorem flatten_chunks {α : Type} (size : Nat) (items : List α) :
    (chunks size items).flatten = items := by
  fun_induction chunks size items with
  | case1 items _ => exact List.append_nil _
  | case2 items _ ih => rw [List.flatten_cons, ih, List.take_append_drop]

theorem mem_remember {found : List Song} {song other : Song} (hfound : AllShown c viewer found)
    (hsong : shown c viewer song.id = some song) :
    other ∈ remember found song ↔ other = song ∨ other ∈ found := by
  rw [remember, List.mem_cons, List.mem_filter, bne_iff_ne]
  constructor
  · rintro (heq | ⟨hmem, -⟩)
    exacts [.inl heq, .inr hmem]
  · rintro (heq | hmem)
    · exact .inl heq
    · by_cases hid : other.id = song.id
      · have hother := hfound other hmem
        rw [hid, hsong] at hother
        exact .inl (Option.some.inj hother).symm
      · exact .inr ⟨hmem, hid⟩

theorem mem_foldl_remember {songs found : List Song} {other : Song}
    (hfound : AllShown c viewer found) (hsongs : AllShown c viewer songs) :
    other ∈ songs.foldl remember found ↔ other ∈ songs ∨ other ∈ found := by
  induction songs generalizing found with
  | nil => simp
  | cons song rest ih =>
    have hsong := hsongs song List.mem_cons_self
    have hnext : AllShown c viewer (remember found song) := by
      intro other hother
      rcases (mem_remember hfound hsong).mp hother with rfl | hmem
      exacts [hsong, hfound other hmem]
    rw [List.foldl_cons, ih hnext fun s hs => hsongs s (List.mem_cons_of_mem _ hs),
      mem_remember hfound hsong, List.mem_cons]
    tauto

theorem allShown_among (hc : c.Invariant) (ids : List String) :
    AllShown c viewer (among c viewer ids) :=
  fun _ hsong => ((mem_among hc).mp hsong).2

theorem mem_foldl_among (hc : c.Invariant) {parts : List (List String)} {found : List Song}
    {song : Song} (hfound : AllShown c viewer found) :
    song ∈ parts.foldl (fun found part => (among c viewer part).foldl remember found) found ↔
      song.id ∈ parts.flatten ∧ shown c viewer song.id = some song ∨ song ∈ found := by
  induction parts generalizing found with
  | nil => simp
  | cons part rest ih =>
    have hnext : AllShown c viewer ((among c viewer part).foldl remember found) := by
      intro other hother
      rcases (mem_foldl_remember hfound (allShown_among hc part)).mp hother with hmem | hmem
      exacts [allShown_among hc part other hmem, hfound other hmem]
    rw [List.foldl_cons, ih hnext, mem_foldl_remember hfound (allShown_among hc part),
      mem_among hc, List.flatten_cons, List.mem_append]
    tauto

theorem takeInOrder_eq {ids : List String} {found : List Song} (hnodup : ids.Nodup)
    (hfound : AllShown c viewer found)
    (hall : ∀ id ∈ ids, ∀ song, shown c viewer id = some song → song ∈ found) :
    takeInOrder ids found = ids.filterMap (shown c viewer) := by
  induction ids generalizing found with
  | nil => rfl
  | cons id rest ih =>
    obtain ⟨hnot, hrest⟩ := List.nodup_cons.mp hnodup
    have hlater : ∀ other ∈ rest, ∀ song, shown c viewer other = some song → song ∈ found :=
      fun other hother => hall other (List.mem_cons_of_mem _ hother)
    rw [takeInOrder]
    cases hfind : found.find? (·.id == id) with
    | some song =>
      have hid : song.id = id := by simpa using List.find?_some hfind
      have hshown : shown c viewer id = some song :=
        hid ▸ hfound song (List.mem_of_find?_eq_some hfind)
      rw [List.filterMap_cons_some hshown]
      refine congrArg (song :: ·) (ih hrest ?_ ?_)
      · exact fun other hother => hfound other (List.mem_of_mem_filter hother)
      · intro other hother found' hother'
        have hid' := shown_id hother'
        refine List.mem_filter.mpr ⟨hlater other hother found' hother', ?_⟩
        rw [bne_iff_ne, hid']
        rintro rfl
        exact hnot hother
    | none =>
      have hshown : shown c viewer id = none := by
        apply Option.eq_none_iff_forall_ne_some.mpr
        intro song hsong
        have hmem := hall id List.mem_cons_self song hsong
        exact List.find?_eq_none.mp hfind song hmem (beq_iff_eq.mpr (shown_id hsong))
      rw [List.filterMap_cons_none hshown]
      exact ih hrest hfound hlater

/-- However the ids are cut into parts, the songs found are those that they show. -/
theorem mem_found (hc : c.Invariant) (size : Nat) (ids : List String) {song : Song} :
    song ∈ (chunks size ids).foldl
      (fun found part => (among c viewer part).foldl remember found) [] ↔
        song.id ∈ ids ∧ shown c viewer song.id = some song := by
  have hnone : AllShown c viewer [] := fun _ h => nomatch h
  rw [mem_foldl_among hc hnone, flatten_chunks]
  simp

/-- Each id gives the song it shows, in the order of the ids. -/
theorem fetch_eq (hc : c.Invariant) (size : Nat) {ids : List String} (hnodup : ids.Nodup) :
    fetch size c viewer ids = ids.filterMap (shown c viewer) := by
  apply takeInOrder_eq hnodup fun song hsong => ((mem_found hc size ids).mp hsong).2
  intro id hid song hsong
  rw [mem_found hc, shown_id hsong]
  exact ⟨hid, hsong⟩

theorem exists_shown (hc : c.Invariant) (viewer : Option Int) {song : SongRow}
    (hsong : song ∈ c.songs) : ∃ s, shown c viewer song.id = some s := by
  obtain ⟨album, halbum⟩ := Option.isSome_iff_exists.mp (hc.linked.songAlbum song hsong)
  obtain ⟨artist, hartist⟩ := Option.isSome_iff_exists.mp (hc.linked.songArtist song hsong)
  rw [shown, song?_of_mem hc hsong, Option.bind_some, Row.toSong?]
  simp [view, halbum, hartist]

theorem map_id_filterMap (c : Catalogue) (viewer : Option Int) (ids : List String) :
    (ids.filterMap (shown c viewer)).map (·.id) =
      ids.filter fun id => (shown c viewer id).isSome := by
  induction ids with
  | nil => rfl
  | cons id rest ih =>
    cases hshown : shown c viewer id with
    | none => rw [List.filterMap_cons_none hshown, ih, List.filter_cons_of_neg (by simp [hshown])]
    | some song =>
      rw [List.filterMap_cons_some hshown, List.map_cons, ih, shown_id hshown,
        List.filter_cons_of_pos (by simp [hshown])]

theorem map_id_filterMap_shown {ids : List String}
    (h : ∀ id ∈ ids, ∃ song, shown c viewer id = some song) :
    (ids.filterMap (shown c viewer)).map (·.id) = ids := by
  rw [map_id_filterMap, List.filter_eq_self]
  exact fun id hid => Option.isSome_iff_exists.mpr (h id hid)

theorem shown_fields {id : String} {song : Song} (h : shown c viewer id = some song) :
    ∃ row, c.song? id = some row ∧ song.title = row.title ∧ song.playCount =
      ((c.interaction? (viewer.getD 0) id).map (·.playCount)).getD 0 := by
  obtain ⟨row, hrow, hview⟩ := Option.bind_eq_some_iff.mp h
  obtain rfl : row.id = id := beq_iff_eq.mp (List.find?_some hrow :)
  refine ⟨row, hrow, ?_⟩
  unfold Row.toSong? at hview
  split at hview
  · rw [← Option.some.inj hview]
    exact ⟨rfl, rfl⟩
  · cases hview

theorem exists_counted {user : Int} {id : String} {song : Song}
    (hsong : shown c (some user) id = some song)
    (hcount : Interaction.countLimit ≤ song.playCount) :
    ∃ i ∈ c.interactions, i.userId = user ∧ i.songId = id ∧
      Interaction.countLimit ≤ i.playCount := by
  obtain ⟨-, -, -, hplays⟩ := shown_fields hsong
  rw [Option.getD_some] at hplays
  cases hfound : c.interaction? user id with
  | none =>
    rw [hplays, hfound] at hcount
    exact absurd hcount (by decide)
  | some i =>
    rw [hplays, hfound] at hcount
    have hkey := List.find?_some hfound
    rw [Bool.and_eq_true, beq_iff_eq, beq_iff_eq] at hkey
    exact ⟨i, List.mem_of_find?_eq_some hfound, hkey.1, hkey.2, hcount⟩

/-- The songs of ids are handed out in their order, unless one was played too often. -/
theorem many_cases (hc : c.Invariant) (user : Int) {ids : List String} (hnodup : ids.Nodup) :
    many c user ids = .ok (ids.filterMap (shown c (some user))) ∨
      many c user ids = .error (.database .countTooLarge) ∧
        ∃ i ∈ c.interactions, i.userId = user ∧ i.songId ∈ ids ∧
          Interaction.countLimit ≤ i.playCount := by
  rw [many, fetch_eq hc chunkSize hnodup, readable]
  by_cases hlarge : ((ids.filterMap (shown c (some user))).any fun song =>
      Interaction.countLimit ≤ song.playCount) = true
  · refine .inr ⟨if_pos hlarge, ?_⟩
    obtain ⟨song, hmem, hcount⟩ := List.any_eq_true.mp hlarge
    obtain ⟨id, hid, hsong⟩ := List.mem_filterMap.mp hmem
    obtain ⟨i, hi, huser, rfl, hlimit⟩ := exists_counted hsong (decide_eq_true_iff.mp hcount)
    exact ⟨i, hi, huser, hid, hlimit⟩
  · exact .inl (if_neg hlarge)

end Songs

end Setlist
