import Setlist.Proofs.Catalogue.Agreement
import Setlist.Proofs.Catalogue.Rules
import Setlist.Proofs.Interactions.Calls
import Setlist.Proofs.Rule.Reading

/-! # Likes

No rule reads the mark of a song. But the first like of a song that its user never touched also
dates the song, so that rules on that date, and orders by it, see it where they saw none.
-/

namespace Setlist

/-- The song as a viewer sees it once a user has marked a song. -/
def Song.marked (user : Int) (id : String) (liked : Bool) (viewer : Int) (song : Song) : Song :=
  if viewer = user ∧ song.id = id then { song with liked := liked } else song

theorem Song.playCount_marked (user : Int) (id : String) (liked : Bool) (viewer : Int)
    (song : Song) : (song.marked user id liked viewer).playCount = song.playCount := by
  unfold marked
  split <;> rfl

namespace Interactions

open Catalogue

variable {c d : Catalogue} {user viewer : Int} {song time : String} {liked : Bool}

section Marked

variable (h : Writes c (afterMark time user song liked (c.interaction? user song)) d)

include h

theorem elsewhere_marked : d.artists = c.artists ∧ d.albums = c.albums ∧ d.songs = c.songs := by
  obtain ⟨_, rfl⟩ := h.elsewhere
  exact ⟨rfl, rfl, rfl⟩

theorem songs_marked : d.songs = c.songs := (elsewhere_marked h).2.2

theorem view_marked (row : SongRow) : d.view viewer row = { c.view viewer row with
    interaction := if viewer = user ∧ row.id = song then
      some (afterMark time user song liked (c.interaction? user song))
      else c.interaction? viewer row.id } := by
  obtain ⟨huser, hsong⟩ : (afterMark time user song liked (c.interaction? user song)).userId = user ∧
      (afterMark time user song liked (c.interaction? user song)).songId = song :=
    written_key (fun _ => ⟨rfl, rfl⟩) ⟨rfl, rfl⟩
  have hfound := h.found viewer row.id
  rw [huser, hsong] at hfound
  rw [view, hfound]
  obtain ⟨_, rfl⟩ := h.elsewhere
  rfl

/-- Every field reads as before, but for the date of a song that is touched for the first time. -/
theorem cell_marked {row : SongRow} {field : Field} (hfield : viewer = user → row.id = song →
    (c.interaction? user song).isSome ∨ field ≠ .playedAt) :
    (d.view viewer row).cell field = (c.view viewer row).cell field := by
  rw [view_marked h]
  by_cases hkey : viewer = user ∧ row.id = song
  · obtain ⟨rfl, rfl⟩ := hkey
    have hcase := hfield rfl rfl
    rw [if_pos ⟨rfl, rfl⟩, view]
    cases hi : c.interaction? viewer row.id with
    | some i => cases field <;> rfl
    | none =>
      rw [hi] at hcase
      cases field with
      | playedAt => exact absurd rfl (hcase.resolve_left Bool.false_ne_true)
      | _ => rfl
  · rw [if_neg hkey]
    rfl

theorem toSong?_marked (row : SongRow) : (d.view viewer row).toSong? =
    (c.view viewer row).toSong?.map (Song.marked user song liked viewer) := by
  rw [view_marked h, Row.toSong?, Row.toSong?, view]
  cases c.album? row.albumId with
  | none => rfl
  | some album =>
    cases c.artist? row.artistId with
    | none => rfl
    | some artist =>
      simp only [Option.map_some, Song.marked]
      split
      case isTrue hkey =>
        obtain ⟨rfl, rfl⟩ := hkey
        cases c.interaction? viewer row.id <;> rfl
      case isFalse => rfl

theorem many_marked (hc : c.Invariant) (hd : d.Invariant) {ids : List String} (hids : ids.Nodup) :
    Songs.many d viewer ids =
      (Songs.many c viewer ids).map (·.map (Song.marked user song liked viewer)) := by
  have hshown (id : String) : Songs.shown d (some viewer) id =
      (Songs.shown c (some viewer) id).map (Song.marked user song liked viewer) := by
    rw [Songs.shown, Songs.shown, song?, songs_marked h, ← song?, Option.map_bind]
    exact congrArg _ (funext fun row => toSong?_marked h row)
  have hfetched : Songs.fetch Songs.chunkSize d (some viewer) ids =
      (Songs.fetch Songs.chunkSize c (some viewer) ids).map
        (Song.marked user song liked viewer) := by
    rw [Songs.fetch_eq hc _ hids, Songs.fetch_eq hd _ hids, List.map_filterMap]
    exact congrArg (List.filterMap · ids) (funext hshown)
  rw [Songs.many, Songs.many, hfetched, Songs.readable, Songs.readable, List.any_map]
  simp only [Function.comp_def, Song.playCount_marked]
  split <;> rfl

end Marked

/-- The user had touched the song, or its date is neither asked for nor sorted by. -/
def IsUnseen (c : Catalogue) (e : Expression) (order : SortOrder) (user : Int) (song : String) :
    Prop :=
  (c.interaction? user song).isSome ∨ ¬e.Reads .playedAt ∧ order.field ≠ .playedAt

theorem agree_marked {e : Expression} {order : SortOrder}
    (h : Writes c (afterMark time user song liked (c.interaction? user song)) d)
    (hunseen : e.user = user → IsUnseen c e order user song) (row : SongRow) :
    (c.view e.user row).Agree e order (d.view e.user row) := by
  intro field hfield
  refine (cell_marked h fun huser _ => (hunseen huser).imp_right ?_).symm
  rintro ⟨hreads, horder⟩ rfl
  exact hfield.elim hreads horder

/-- A like is seen in the mark alone, whatever is asked and however it is sorted, unless it is
the first that its user does with the song. Then the song is dated as well, and it may come and
go, or move, by that date; the other songs stay where they are among themselves. -/
theorem like_dates_untouched_only (hc : c.Reachable) {e : Expression} {groups : List GroupRecord}
    (he : GroupRecord.compileStrict viewer groups = .ok e) {marking : Instant}
    (hliked : (setLiked marking user song liked c).1.isOk = true) (order : SortOrder)
    (now : Instant) :
    let d := (setLiked marking user song liked c).2
    ((viewer = user → IsUnseen c e order user song) →
      (listing e order now).ids d = (listing e order now).ids c ∧
      ∀ plan page, d.evaluate plan e order page now =
        (c.evaluate plan e order page now).map fun answer =>
          { answer with songs := answer.songs.map (Song.marked user song liked viewer) }) ∧
    ((listing e order now).ids d).filter (· != song) =
      ((listing e order now).ids c).filter (· != song) ∧
    (c.interaction? user song = none → ∃ time, Timestamp.stamp? marking = some time ∧
      ∀ row ∈ c.songs, row.id = song →
        (c.view user row).cell .playedAt = none ∧
        (d.view user row).cell .playedAt = some (.text time) ∧
        ∀ field, field ≠ .playedAt →
          (d.view user row).cell field = (c.view user row).cell field) := by
  obtain ⟨time, htime, hwrites⟩ := setLiked_written hliked
  have hd : (setLiked marking user song liked c).2.Invariant :=
    (@Change.apply_moves (.setLiked marking user song liked) trivial c).invariant hc.invariant
  generalize (setLiked marking user song liked c).2 = d at hwrites hd
  obtain rfl := GroupRecord.user_of_compileStrict he
  have hcovered := GroupRecord.coveredBy_of_compileStrict he
  obtain ⟨hartists, halbums, hsongs⟩ := elsewhere_marked hwrites
  refine ⟨fun hunseen => ?_, ?_, fun hnone => ⟨time, htime, ?_⟩⟩
  · have halike : ∀ row ∈ c.songs, (c.view e.user row).Agree e order (d.view e.user row) :=
      fun row _ => agree_marked hwrites hunseen row
    exact ⟨(ids_congr hc.invariant hd hcovered hsongs halike).symm,
      evaluate_congr hc.invariant hd hcovered hsongs halike hartists halbums fun _ hids =>
        many_marked hwrites hc.invariant hd hids⟩
  · refine (filter_ids_congr hc.invariant hd hcovered hsongs fun row _ hother field _ => ?_).symm
    exact (cell_marked hwrites fun _ hrow => absurd hrow (bne_iff_ne.mp hother)).symm
  · rintro row - rfl
    refine ⟨?_, ?_, fun field hfield => cell_marked hwrites fun _ _ => .inr hfield⟩
    · simp [Row.cell, view, hnone]
    · rw [view_marked hwrites, if_pos ⟨rfl, rfl⟩, hnone]
      rfl

/-- The song is listed by its title as before. -/
theorem like_dates_untouched_only_titledA :
    (setLiked ⟨60, 0⟩ 1 "song" true (ofSong "A" "B" "C")).1.isOk = true ∧
      (listing (titledExpression 1) .byTitle ⟨120, 0⟩).ids
        (setLiked ⟨60, 0⟩ 1 "song" true (ofSong "A" "B" "C")).2 =
          (listing (titledExpression 1) .byTitle ⟨120, 0⟩).ids (ofSong "A" "B" "C") := by
  have hliked : (setLiked ⟨60, 0⟩ 1 "song" true (ofSong "A" "B" "C")).1.isOk = true := by
    decide +kernel
  refine ⟨hliked, ((like_dates_untouched_only (reachable_ofSong "A" "B" "C")
    (compileStrict_titledA 1) hliked .byTitle ⟨120, 0⟩).1 fun _ => .inr ⟨?_, by decide⟩).1⟩
  rintro ⟨group, hgroup, p, hp, hfield⟩
  obtain rfl := List.mem_singleton.mp hgroup
  obtain rfl := List.mem_singleton.mp hp
  cases hfield

/-- Songs dated by their user within the last seven days. -/
def playedLately : Expression :=
  .ofGroups 1 [[⟨.playedAt, .inLast, [.window 604800000], .single .interaction⟩]]

/-- A song that no one has played is found as played lately, once it is liked. -/
theorem liked_found_as_played : (ofSong "A" "B" "C").Reachable ∧
    (setLiked ⟨60, 0⟩ 1 "song" true (ofSong "A" "B" "C")).1.isOk = true ∧
    GroupRecord.compileStrict 1 [⟨none, [literalRule .playedAt .inLast "7"]⟩] =
      .ok playedLately ∧
    (listing playedLately .byTitle ⟨120, 0⟩).ids (ofSong "A" "B" "C") = [] ∧
    (listing playedLately .byTitle ⟨120, 0⟩).ids
      (setLiked ⟨60, 0⟩ 1 "song" true (ofSong "A" "B" "C")).2 = ["song"] := by
  have hreachable := reachable_ofSong "A" "B" "C"
  have hcompile : (literalRule .playedAt .inLast "7").compile =
      .ok ⟨.playedAt, .inLast, [.window 604800000], .single .interaction⟩ := by
    have hnumeral : Binary64.read? (Text.trim "7") = some (.ofInt 7) := by decide +kernel
    have hdays : TimeUnit.days.duration (.ofInt 7) = some 604800000 := by decide +kernel
    refine (asks_literalRule .playedAt .inLast "7").compile_eq rfl rfl nofun (.cons ?_ .nil)
    exact Rule.compileValue_eq_ok.mpr
      (.window rfl rfl (.numeral hnumeral (by decide +kernel)) hdays)
  have hstrict := compileStrict_single 1 hcompile
  have hcovered := GroupRecord.coveredBy_of_compileStrict hstrict
  have hliked : (setLiked ⟨60, 0⟩ 1 "song" true (ofSong "A" "B" "C")).2.Reachable :=
    .change (.setLiked ⟨60, 0⟩ 1 "song" true) trivial hreachable
  refine ⟨hreachable, by decide +kernel, hstrict, ?_, ?_⟩
  · have hnone : (ofSong "A" "B" "C").matched playedLately ⟨120, 0⟩ = [] := by decide +kernel
    exact List.perm_nil.mp (hnone ▸ ids_listing hreachable.invariant hcovered .byTitle ⟨120, 0⟩)
  · have hfound : (setLiked ⟨60, 0⟩ 1 "song" true (ofSong "A" "B" "C")).2.matched playedLately
        ⟨120, 0⟩ = ["song"] := by decide +kernel
    exact List.perm_singleton.mp
      (hfound ▸ ids_listing hliked.invariant hcovered .byTitle ⟨120, 0⟩)

end Interactions

end Setlist
