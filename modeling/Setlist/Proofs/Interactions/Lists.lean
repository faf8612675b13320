import Setlist.Proofs.Interactions.History

/-! # Favorites and songs played recently

Both lists are drawn from the interactions of one user, each song once, and put in an order of
their own. So they too can be told from the calls that were answered.
-/

namespace Setlist

open Catalogue

namespace Interactions

variable {c : Catalogue} {user : Int} {song : String}

def ofUser (c : Catalogue) (user : Int) (kind : Interaction → Bool) : List Interaction :=
  c.interactions.filter fun i => i.userId == user && kind i

theorem mem_ofUser (hc : c.Distinct) {kind : Interaction → Bool} {i : Interaction} :
    i ∈ ofUser c user kind ↔ c.interaction? user i.songId = some i ∧ kind i = true := by
  rw [ofUser, List.mem_filter, interaction?_eq_some hc, Bool.and_eq_true, beq_iff_eq]
  tauto

theorem nodup_ofUser (hc : c.Distinct) (user : Int) (kind : Interaction → Bool) :
    ((ofUser c user kind).map (·.songId)).Nodup := by
  refine (hc.interactions.of_map.filter _).map_on fun i hi j hj hsame => ?_
  obtain ⟨hi, -⟩ := (mem_ofUser hc).mp hi
  obtain ⟨hj, -⟩ := (mem_ofUser hc).mp hj
  exact Option.some.inj (hi.symm.trans (hsame ▸ hj))

def likedSongs (c : Catalogue) (user : Int) : List SongRow :=
  (ofUser c user (·.liked)).flatMap fun i => c.songs.filter (·.id == i.songId)

theorem map_id_likedSongs (hc : c.Invariant) (user : Int) :
    (likedSongs c user).map (·.id) = (ofUser c user (·.liked)).map (·.songId) := by
  have hsingle : ∀ i ∈ ofUser c user (·.liked),
      (c.songs.filter (·.id == i.songId)).map (·.id) = [i.songId] := by
    intro i hi
    obtain ⟨row, hrow⟩ := Option.isSome_iff_exists.mp
      (hc.linked.interactionSong i (List.mem_of_mem_filter hi))
    have hfind : c.songs.find? (·.id == i.songId) = some row := hrow
    rw [filter_eq_find? hc.distinct.songs fun _ => beq_iff_eq, hfind]
    exact congrArg ([·]) (beq_iff_eq.mp (List.find?_some hfind :))
  rw [likedSongs, List.map_flatMap]
  simpa using flatMap_singletons (g := id) hsingle

/-- The songs that are handed out as favorites of a user. -/
structure Favors (c : Catalogue) (user : Int) (songs : List Song) : Prop where
  nodup : (songs.map (·.id)).Nodup
  sorted : songs.Pairwise fun a b =>
    ((compare (Text.fold a.title) (Text.fold b.title)).then (compare a.id b.id)).isLE
  mem_iff : ∀ id, id ∈ songs.map (·.id) ↔ ∃ i, c.interaction? user id = some i ∧ i.liked = true
  shown : ∀ song ∈ songs, Songs.shown c (some user) song.id = some song

theorem favorites_favors (hc : c.Invariant)
    (hcount : ∀ i ∈ c.interactions, i.playCount < Interaction.countLimit) (user : Int) :
    ∃ songs, favorites c user = .ok songs ∧ Favors c user songs := by
  let rows := (likedSongs c user).mergeSort fun a b => byTitle a b != .gt
  have hmem : ∀ row ∈ rows, row ∈ c.songs := by
    intro row hrow
    obtain ⟨i, -, hrow⟩ := List.mem_flatMap.mp (List.mem_mergeSort.mp hrow)
    exact List.mem_of_mem_filter hrow
  have hperm : (rows.map (·.id)).Perm ((ofUser c user (·.liked)).map (·.songId)) :=
    map_id_likedSongs hc user ▸ (List.mergeSort_perm _ _).map _
  have hnodup : (rows.map (·.id)).Nodup :=
    hperm.nodup_iff.mpr (nodup_ofUser hc.distinct user (·.liked))
  have hids : ((rows.map (·.id)).filterMap (Songs.shown c (some user))).map (·.id) =
      rows.map (·.id) := by
    refine Songs.map_id_filterMap_shown fun id hid => ?_
    obtain ⟨row, hrow, rfl⟩ := List.mem_map.mp hid
    exact Songs.exists_shown hc _ (hmem row hrow)
  have hmany : favorites c user =
      .ok ((rows.map (·.id)).filterMap (Songs.shown c (some user))) := by
    rcases Songs.many_cases hc user hnodup with hmany | ⟨-, i, hi, -, -, hlimit⟩
    · exact hmany
    · exact absurd (hcount i hi) (not_lt.mpr hlimit)
  refine ⟨_, hmany, ?_⟩
  constructor
  case nodup => rwa [hids]
  case sorted =>
    rw [List.filterMap_map, List.pairwise_filterMap]
    refine (pairwise_mergeSort transCmp_byTitle _).imp_of_mem fun {a b} ha hb hle => ?_
    intro song hsong other hother
    have hfolded {row : SongRow} (hrow : row ∈ rows) {song : Song}
        (hsong : Songs.shown c (some user) row.id = some song) :
        Text.fold song.title = row.titleFolded := by
      obtain ⟨found, hfound, htitle, -⟩ := Songs.shown_fields hsong
      obtain rfl := Option.some.inj ((song?_of_mem hc (hmem row hrow)).symm.trans hfound)
      rw [htitle, hc.folded.songs row (hmem row hrow)]
    rw [hfolded ha hsong, hfolded hb hother, Songs.shown_id hsong, Songs.shown_id hother]
    exact hle
  case mem_iff =>
    intro id
    rw [hids, hperm.mem_iff, List.mem_map]
    constructor
    · rintro ⟨i, hi, rfl⟩
      exact ⟨i, (mem_ofUser hc.distinct).mp hi⟩
    · rintro ⟨i, hi, hliked⟩
      obtain ⟨-, rfl⟩ := interaction?_key hi
      exact ⟨i, (mem_ofUser hc.distinct).mpr ⟨hi, hliked⟩, rfl⟩
  case shown =>
    intro song hsong
    obtain ⟨id, -, hshown⟩ := List.mem_filterMap.mp hsong
    rwa [Songs.shown_id hshown]

/-- The interactions behind the songs that a user played, the latest first. -/
structure Recent (c : Catalogue) (user : Int) (rows : List Interaction) : Prop where
  nodup : (rows.map (·.songId)).Nodup
  sorted : rows.Pairwise fun a b =>
    ((compare b.updatedAt a.updatedAt).then (compare a.songId b.songId)).isLE
  mem_iff : ∀ i, i ∈ rows ↔ c.interaction? user i.songId = some i ∧ 0 < i.playCount

theorem recentlyPlayed_recent (hc : c.Invariant) (user : Int) :
    ∃ rows, Recent c user rows ∧ recentlyPlayed c user none = rows.map (·.songId) ∧
      ∀ n, recentlyPlayed c user (some n) = (recentlyPlayed c user none).take n := by
  let rows := (ofUser c user fun i => decide (0 < i.playCount)).mergeSort recencyOrder
  have hperm : rows.Perm (ofUser c user fun i => decide (0 < i.playCount)) :=
    List.mergeSort_perm _ _
  refine ⟨rows, ?_, rfl, fun n => List.map_take⟩
  constructor
  case nodup => exact (hperm.map _).nodup_iff.mpr (nodup_ofUser hc.distinct user _)
  case sorted => exact pairwise_mergeSort transCmp_byRecency _
  case mem_iff => exact fun i => by rw [hperm.mem_iff, mem_ofUser hc.distinct, decide_eq_true_iff]

open Change

variable {calls : List Change}

theorem Told.liked_iff {row? : Option Interaction} (h : Told user song calls row?) :
    (∃ i, row? = some i ∧ i.liked = true) ↔
      (calls.filterMap (marked? user song)).getLast? = some true := by
  cases row? with
  | none => simp [h.untouched]
  | some i =>
    have hliked := h.liked i rfl
    cases hlast : (calls.filterMap (marked? user song)).getLast? <;> simp_all

theorem Told.played_iff {i : Interaction} (h : Told user song calls (some i)) :
    0 < i.playCount ↔ calls.filterMap (played? user song) ≠ [] := by
  rw [h.playCount i rfl, ← List.length_pos_iff]
  exact Int.natCast_pos

/-- What users find in a catalogue of what they did with songs, told from the calls that were
answered on the way to it. -/
structure Remembered (calls : List Change) (d : Catalogue) : Prop where
  /-- Each interaction is told from the calls since its song was deleted last. -/
  told : Recorded calls d
  /-- These are calls since the song was made, as none is told of a song that is not there. -/
  absent : ∀ user song, d.song? song = none →
    (since song calls).filterMap (touched? user song) = []
  created : ∀ (change : Change) (user : Int) (song : String) (i j : Interaction), change.Typed →
    d.interaction? user song = some i → (change.apply d).interaction? user song = some j →
      j.createdAt = i.createdAt
  marked : ∀ (now : Instant) (user : Int) (song : String) (liked : Bool) (i : Interaction),
    d.interaction? user song = some i → (setLiked now user song liked d).1.isOk = true →
      (setLiked now user song liked d).2.interaction? user song = some { i with liked := liked }
  favorites : ∀ user, ∃ songs, favorites d user = .ok songs ∧ (songs.map (·.id)).Nodup ∧
    (songs.Pairwise fun a b =>
      ((compare (Text.fold a.title) (Text.fold b.title)).then (compare a.id b.id)).isLE) ∧
    (∀ id, id ∈ songs.map (·.id) ↔
      ((since id calls).filterMap (marked? user id)).getLast? = some true) ∧
    ∀ song ∈ songs, Songs.shown d (some user) song.id = some song ∧
      song.playCount = ((since song.id calls).filterMap (played? user song.id)).length
  recent : ∀ user, ∃ rows : List Interaction,
    recentlyPlayed d user none = rows.map (·.songId) ∧ (rows.map (·.songId)).Nodup ∧
    (rows.Pairwise fun a b =>
      ((compare b.updatedAt a.updatedAt).then (compare a.songId b.songId)).isLE) ∧
    ∀ i, i ∈ rows ↔ d.interaction? user i.songId = some i ∧
      (since i.songId calls).filterMap (played? user i.songId) ≠ []
  limited : ∀ user n, recentlyPlayed d user (some n) = (recentlyPlayed d user none).take n

section Reached

variable {d : Catalogue} (hd : d.Reachable) (h : Recorded calls d)

include hd h

theorem Recorded.favorites
    (hcount : ∀ i ∈ d.interactions, i.playCount < Interaction.countLimit) (user : Int) :
    ∃ songs, favorites d user = .ok songs ∧ (songs.map (·.id)).Nodup ∧
      (songs.Pairwise fun a b =>
        ((compare (Text.fold a.title) (Text.fold b.title)).then (compare a.id b.id)).isLE) ∧
      (∀ id, id ∈ songs.map (·.id) ↔
        ((since id calls).filterMap (marked? user id)).getLast? = some true) ∧
      ∀ song ∈ songs, Songs.shown d (some user) song.id = some song ∧
        song.playCount = ((since song.id calls).filterMap (played? user song.id)).length := by
  obtain ⟨songs, hsongs, hfavors⟩ := favorites_favors hd.invariant hcount user
  refine ⟨songs, hsongs, hfavors.nodup, hfavors.sorted,
    fun id => (hfavors.mem_iff id).trans (h user id).liked_iff, fun song hsong => ?_⟩
  have hshown := hfavors.shown song hsong
  obtain ⟨i, hi, -⟩ := (hfavors.mem_iff song.id).mp (List.mem_map_of_mem hsong)
  obtain ⟨-, -, -, hplays⟩ := Songs.shown_fields hshown
  rw [Option.getD_some, hi] at hplays
  exact ⟨hshown, hplays.trans ((h user song.id).playCount i hi)⟩

theorem Recorded.recent (user : Int) : ∃ rows : List Interaction,
    recentlyPlayed d user none = rows.map (·.songId) ∧ (rows.map (·.songId)).Nodup ∧
      (rows.Pairwise fun a b =>
        ((compare b.updatedAt a.updatedAt).then (compare a.songId b.songId)).isLE) ∧
      ∀ i, i ∈ rows ↔ d.interaction? user i.songId = some i ∧
        (since i.songId calls).filterMap (played? user i.songId) ≠ [] := by
  obtain ⟨rows, hrecent, hrows, -⟩ := recentlyPlayed_recent hd.invariant user
  refine ⟨rows, hrows, hrecent.nodup, hrecent.sorted, fun i => (hrecent.mem_iff i).trans ?_⟩
  refine and_congr_right fun hi => ?_
  have htold := h user i.songId
  rw [hi] at htold
  exact htold.played_iff

theorem Recorded.absent (user : Int) {song : String} (hsong : d.song? song = none) :
    (since song calls).filterMap (touched? user song) = [] := by
  have htold := h user song
  cases hi : d.interaction? user song with
  | none =>
    rw [hi] at htold
    exact htold.untouched.1
  | some i =>
    have hsome := hd.invariant.linked.interactionSong i (List.mem_of_find?_eq_some hi)
    rw [(interaction?_key hi).2, hsong] at hsome
    cases hsome

theorem Recorded.remembered
    (hcount : ∀ i ∈ d.interactions, i.playCount < Interaction.countLimit) :
    Remembered calls d where
  told := h
  absent user _ := h.absent hd user
  created _ _ _ _ _ htyped := createdAt_apply hd htyped
  marked _ _ _ _ _ := setLiked_found
  favorites := h.favorites hd hcount
  recent := h.recent hd
  limited user n := by
    obtain ⟨-, -, -, hlimited⟩ := recentlyPlayed_recent hd.invariant user
    exact hlimited n

end Reached

/-- Whatever users play and like, and whatever songs are deleted in between, what they find is
told from the calls that were answered, as long as their plays can be counted. -/
theorem interactions_remember_calls {changes : List Change}
    (htyped : ∀ change ∈ changes, change.Typed) (hplays : changes.countP isPlay < 2 ^ 63) :
    Remembered (accepted changes .empty) (runAll changes .empty) := by
  have hreachable := reachable_runAll htyped
  have hrecorded := recorded_runAll htyped hplays
  refine hrecorded.remembered hreachable fun i hi => ?_
  have hfound := (interaction?_eq_some hreachable.invariant.distinct).mpr ⟨hi, rfl, rfl⟩
  have hcount := length_played_le changes .empty i.userId i.songId
  rw [(hrecorded i.userId i.songId).playCount i hfound]
  unfold Interaction.countLimit
  omega

/-- The first user plays a song twice and likes it, the second one plays it once. A song that both
have played is deleted. -/
def somePlays : List Change :=
  [.createUser ⟨0, 0⟩ "user", .createUser ⟨0, 0⟩ "other", .createArtist ⟨0, 0⟩ ⟨"C"⟩,
    .createAlbum ⟨0, 0⟩ ⟨"B", 1⟩,
    .createSong ⟨0, 0⟩ ⟨"A", .ofInt 1, none, 1, "path", 1, 1⟩ "song",
    .createSong ⟨0, 0⟩ ⟨"D", .ofInt 1, none, 1, "elsewhere", 1, 1⟩ "gone",
    .recordPlay ⟨0, 0⟩ 1 "song", .recordPlay ⟨0, 0⟩ 1 "gone", .recordPlay ⟨60, 0⟩ 1 "song",
    .recordPlay ⟨60, 0⟩ 2 "gone", .deleteSong "gone", .recordPlay ⟨90, 0⟩ 2 "song",
    .setLiked ⟨120, 0⟩ 1 "song" true]

theorem interactions_remember_somePlays :
    (runAll somePlays .empty).interactions.map (fun i =>
        (i.userId, i.songId, i.playCount, i.liked)) =
      [(1, "song", 2, true), (2, "song", 1, false)] ∧
      Remembered (accepted somePlays .empty) (runAll somePlays .empty) :=
  ⟨by decide +kernel,
    interactions_remember_calls (by simp [somePlays, Change.Typed]) (by decide)⟩

end Interactions

end Setlist
