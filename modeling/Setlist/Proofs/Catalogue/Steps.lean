import Mathlib.Data.List.DropRight
import Mathlib.Data.List.Perm.Subperm
import Setlist.Catalogue.Albums
import Setlist.Catalogue.Artists
import Setlist.Catalogue.Interactions
import Setlist.Catalogue.Playlists
import Setlist.Catalogue.Users
import Setlist.Proofs.Calendar.Stored
import Setlist.Proofs.Catalogue.Actions
import Setlist.Proofs.Rule.Stored

/-! # Steps of the catalogue

Every action leaves the catalogue as it is or takes one step. A step changes one table, and
is listed here with what the action checked before. The rows of a user change in steps of
that user only, unless their song is deleted.
-/

namespace Setlist

theorem Text.trim_trim (text : String) : Text.trim (Text.trim text) = Text.trim text := by
  have htrimmed (text : List Char) :
      Text.trimmed text = (text.dropWhile Text.isBlank).rdropWhile Text.isBlank := rfl
  have hfront : (Text.trimmed text.toList).dropWhile Text.isBlank = Text.trimmed text.toList := by
    refine List.dropWhile_eq_self_iff.mpr fun hlength => ?_
    have hkept : Text.trimmed text.toList <+: text.toList.dropWhile Text.isBlank :=
      List.rdropWhile_prefix _ _
    rw [hkept.getElem hlength]
    exact List.dropWhile_get_zero_not _ _ (hlength.trans_le hkept.length_le)
  rw [Text.trim, Text.trim, String.toList_ofList, htrimmed (Text.trimmed _), hfront, htrimmed,
    List.rdropWhile_idempotent]

structure IsTidy (name : String) : Prop where
  named : name ≠ ""
  trimmed : Text.trim name = name

theorem isTidy_trim {name : String} (h : (Text.trim name).isEmpty = false) :
    IsTidy (Text.trim name) where
  named hblank := by
    rw [hblank] at h
    cases h
  trimmed := Text.trim_trim name

/-- The row's text is that of accepted rules, and a plain playlist has no rules. -/
structure PlaylistRow.Holds (row : PlaylistRow) (rules : List GroupRecord) : Prop where
  typed : ∀ group ∈ rules, group.Typed
  accepted : GroupRecord.Accepted rules
  text : row.rules = GroupRecord.listFormat.text rules
  plain : row.isSmart = false → rules = []

structure SongRow.IsDated (row : SongRow) : Prop where
  createdAt : Timestamp.IsStamp row.createdAt
  updatedAt : Timestamp.IsStamp row.updatedAt

structure SongRow.IsTimed (row : SongRow) : Prop where
  finite : row.length.isFinite = true
  nonnegative : 0 ≤ row.length.units

namespace Catalogue

variable {c d : Catalogue}

def isBetween (user : Int) (song : String) (i : Interaction) : Bool :=
  i.userId == user && i.songId == song

/-- A step on rows that belong to no user, or on the rows of one. -/
inductive Step (c : Catalogue) : Option Int → Catalogue → Prop where

  | addUser (name time : String) : IsTidy name →
      Step c none { c with
        users := c.users ++ [⟨c.userIds + 1, name, time⟩], userIds := c.userIds + 1 }

  | addArtist (name time : String) : (∀ row ∈ c.artists, row.name ≠ name) →
      Step c none { c with
        artists := c.artists ++ [⟨c.artistIds + 1, name, Text.fold name, time, time⟩]
        artistIds := c.artistIds + 1 }

  | addAlbum (artistId : Int) (name time : String) :
      (∀ row ∈ c.albums, row.artistId = artistId → row.name ≠ name) → (c.artist? artistId).isSome →
      Step c none { c with
        albums := c.albums ++ [⟨c.albumIds + 1, artistId, name, Text.fold name, time, time⟩]
        albumIds := c.albumIds + 1 }

  | addSong (row : SongRow) : (c.song? row.id).isNone → (∀ other ∈ c.songs, other.path ≠ row.path) →
      (c.album? row.albumId).isSome → (c.artist? row.artistId).isSome →
      row.titleFolded = Text.fold row.title → row.IsDated → row.IsTimed →
      Step c none { c with songs := c.songs ++ [row] }

  | dropSong (id : String) :
      Step c none { c with
        songs := c.songs.filter (·.id != id)
        interactions := c.interactions.filter (·.songId != id) }

  | addInteraction (i : Interaction) : c.interactions.any (isBetween i.userId i.songId) = false →
      (c.user? i.userId).isSome → (c.song? i.songId).isSome → Timestamp.IsStamp i.updatedAt →
      Step c (some i.userId) { c with interactions := c.interactions ++ [i] }

  | changeInteraction (user : Int) (song : String) (change : Interaction → Interaction) :
      (∀ i, (change i).userId = i.userId ∧ (change i).songId = i.songId) →
      (∀ i, (change i).updatedAt = i.updatedAt ∨ Timestamp.IsStamp (change i).updatedAt) →
      Step c (some user) { c with
        interactions := c.interactions.map fun i => if isBetween user song i then change i else i }

  | addPlaylist (row : PlaylistRow) (rules : List GroupRecord) : row.id = c.playlistIds + 1 →
      (c.user? row.ownerId).isSome → IsTidy row.name → row.Holds rules →
      Step c (some row.ownerId) { c with
        playlists := c.playlists ++ [row], playlistIds := c.playlistIds + 1 }

  | changePlaylist (row : PlaylistRow) (change : PlaylistRow → PlaylistRow) :
      c.playlist? row.id = some row →
      (∀ r, (change r).id = r.id ∧ (change r).ownerId = r.ownerId) →
      (IsTidy row.name → IsTidy (change row).name) →
      (∀ rules, row.Holds rules → ∃ rules, (change row).Holds rules) →
      Step c (some row.ownerId) { c with
        playlists := c.playlists.map fun r => if r.id == row.id then change r else r }

  | dropPlaylist (id user : Int) :
      Step c (some user) { c with
        playlists := c.playlists.filter fun row => !(row.id == id && row.ownerId == user) }

/-- One step at most. -/
def Moves (c : Catalogue) (owner : Option Int) (d : Catalogue) : Prop := d = c ∨ Step c owner d

theorem Moves.refl (c : Catalogue) {owner : Option Int} : Moves c owner c := .inl rfl

end Catalogue

open Catalogue

variable {c : Catalogue}

theorem Users.create_moves (now : Instant) (name : String) (c : Catalogue) :
    Moves c none (create now name c).2 := by
  simp only [create, Action.failWhen_bind_run, Action.stamp_bind_run]
  split
  case isTrue => exact .refl c
  case isFalse hname =>
    split
    case h_1 time _ =>
      simp only [Action.get_bind_run, Action.set_bind_run, Action.readBack_run_snd]
      exact .inr (.addUser _ time (isTidy_trim (Bool.eq_false_iff.mpr hname)))
    case h_2 => exact .refl c

theorem Artists.create_moves (now : Instant) (artist : NewArtist) (c : Catalogue) :
    Moves c none (create now artist c).2 := by
  simp only [create, Action.failWhen_bind_run, Action.stamp_bind_run, Action.get_bind_run,
    Action.set_bind_run]
  split
  case h_1 time _ =>
    split
    case isTrue => exact .refl c
    case isFalse hname =>
      rw [Action.readBack_run_snd]
      refine .inr (.addArtist artist.name time fun row hrow h => hname ?_)
      exact List.any_eq_true.mpr ⟨row, hrow, by simp [h]⟩
  case h_2 => exact .refl c

theorem Artists.findOrCreate_moves (now : Instant) (name : String) (c : Catalogue) :
    Moves c none (findOrCreate now name c).2 := by
  simp only [findOrCreate, Action.get_bind_run]
  cases find? c name with
  | some _ => exact .refl c
  | none => exact create_moves now ⟨name⟩ c

theorem Albums.create_moves (now : Instant) (album : NewAlbum) (c : Catalogue) :
    Moves c none (create now album c).2 := by
  simp only [create, Action.failWhen_bind_run, Action.stamp_bind_run, Action.get_bind_run,
    Action.set_bind_run]
  split
  case h_1 time _ =>
    split
    case isTrue => exact .refl c
    case isFalse hname =>
      split
      case isTrue => exact .refl c
      case isFalse hartist =>
        rw [Action.readBack_run_snd]
        refine .inr (.addAlbum album.artistId album.name time (fun row hrow hid h => hname ?_) ?_)
        · exact List.any_eq_true.mpr ⟨row, hrow, by simp [hid, h]⟩
        · exact Option.isSome_iff_ne_none.mpr fun h => hartist (by rw [h]; rfl)
  case h_2 => exact .refl c

namespace Songs

/-- What a new row has been checked for. -/
structure Fresh (c : Catalogue) (row : SongRow) : Prop where
  id : (c.song? row.id).isNone
  path : ∀ other ∈ c.songs, other.path ≠ row.path
  album : (c.album? row.albumId).isSome
  artist : (c.artist? row.artistId).isSome
  titleFolded : row.titleFolded = Text.fold row.title
  dated : row.IsDated
  timed : row.IsTimed

theorem Fresh.step {row : SongRow} (h : Fresh c row) :
    Step c none { c with songs := c.songs ++ [row] } :=
  .addSong row h.id h.path h.album h.artist h.titleFolded h.dated h.timed

theorem isTimed_storedLength {row : SongRow} {length : Binary64}
    (hrow : row.length = storedLength length)
    (h : ¬(!length.isFinite || decide (length.units < 0)) = true) : row.IsTimed := by
  obtain ⟨hfinite, hunits⟩ : length.isFinite = true ∧ 0 ≤ length.units := by simpa using h
  constructor <;> rw [hrow, storedLength] <;> split
  case finite.isTrue => decide
  case finite.isFalse => exact hfinite
  case nonnegative.isTrue => decide
  case nonnegative.isFalse => exact hunits

/-- A song is refused, or a checked row with its id is added and read back. -/
theorem create_cases (now : Instant) (song : NewSong) (id : String) (c : Catalogue) :
    (∃ e, create now song id c = (.error e, c)) ∨
      ∃ row : SongRow, row.id = id ∧ Fresh c row ∧
        create now song id c = Action.readBack
          (fun c => (fetch chunkSize c none [row.id]).head?) .song row.id
            { c with songs := c.songs ++ [row] } := by
  simp only [create, Action.failWhen_bind_run, Action.stamp_bind_run, Action.get_bind_run,
    Action.set_bind_run]
  split
  case isTrue => exact .inl ⟨_, rfl⟩
  case isFalse hlength =>
    split
    case h_2 => exact .inl ⟨_, rfl⟩
    case h_1 time htime =>
      split
      case isTrue => exact .inl ⟨_, rfl⟩
      case isFalse hpath =>
        split
        case isTrue => exact .inl ⟨_, rfl⟩
        case isFalse hid =>
          split
          case isTrue => exact .inl ⟨_, rfl⟩
          case isFalse howners =>
            obtain ⟨halbum, hartist⟩ : (c.album? song.albumId).isSome ∧
                (c.artist? song.artistId).isSome := by
              simpa [Option.isSome_iff_ne_none] using howners
            have hfree : (c.song? id).isNone := by simpa [isPresent] using hid
            have hstamp : Timestamp.IsStamp time := ⟨now, htime⟩
            let row : SongRow := ⟨id, song.albumId, song.artistId, song.title,
              Text.fold song.title, storedLength song.length, song.track, song.disc, song.path,
              time, time⟩
            have hfresh : Fresh c row :=
              ⟨hfree, fun other hother h => hpath (List.any_eq_true.mpr ⟨other, hother,
                  beq_iff_eq.mpr h⟩), halbum, hartist, rfl, ⟨hstamp, hstamp⟩,
                isTimed_storedLength rfl hlength⟩
            refine .inr ⟨row, rfl, hfresh, ?_⟩
            dsimp only [row]

theorem create_moves (now : Instant) (song : NewSong) (id : String) (c : Catalogue) :
    Moves c none (create now song id c).2 := by
  rcases create_cases now song id c with ⟨e, he⟩ | ⟨row, -, hfresh, hmade⟩
  · rw [he]
    exact .refl c
  · rw [hmade, Action.readBack_run_snd]
    exact .inr hfresh.step

theorem delete_moves (id : String) (c : Catalogue) : Moves c none (delete id c).2 := by
  simp only [delete, Action.get_bind_run, Action.failWhen_bind_run]
  split
  case isTrue => exact .refl c
  case isFalse => exact .inr (.dropSong id)

end Songs

namespace Interactions

theorem readBack_run_snd (user : Int) (song : String) (c : Catalogue) :
    (readBack user song c).2 = c := by
  simp only [readBack, Action.get_bind_run, Action.lift_bind_run]
  cases get? c user song with
  | error _ => rfl
  | ok found => cases found <;> rfl

theorem upsert_moves (fresh : Interaction) (change : Interaction → Interaction) (c : Catalogue)
    (hsong : (c.song? fresh.songId).isSome) (hstamp : Timestamp.IsStamp fresh.updatedAt)
    (hchange : ∀ i, (change i).userId = i.userId ∧ (change i).songId = i.songId)
    (hdated : ∀ i, (change i).updatedAt = i.updatedAt ∨ Timestamp.IsStamp (change i).updatedAt) :
    Moves c (some fresh.userId) (upsert fresh change c).2 := by
  simp only [upsert, Action.get_bind_run]
  split
  case isTrue =>
    simp only [Action.set_bind_run, readBack_run_snd]
    exact .inr (.changeInteraction fresh.userId fresh.songId change hchange hdated)
  case isFalse hnone =>
    simp only [Action.failWhen_bind_run, Action.set_bind_run]
    split
    case isTrue => exact .refl c
    case isFalse huser =>
      rw [readBack_run_snd]
      refine .inr (.addInteraction fresh (Bool.eq_false_iff.mpr hnone) ?_ hsong hstamp)
      exact Option.isSome_iff_ne_none.mpr fun h => huser (by rw [h]; rfl)

theorem stamp_bind_run {α : Type} (now : Instant) (song : String) (f : String → Action α)
    (c : Catalogue) : (stamp now song >>= f) c =
      if (c.song? song).isSome then (Action.stamp now .interaction .created >>= f) c
      else (.error (.notFound .song song), c) := by
  rw [Action.bind_run, Action.bind_run, stamp]
  simp only [Action.get_bind_run, Action.failWhen_bind_run, Songs.isPresent]
  cases (c.song? song).isSome <;> rfl

theorem recordPlay_moves (now : Instant) (user : Int) (song : String) (c : Catalogue) :
    Moves c (some user) (recordPlay now user song c).2 := by
  rw [recordPlay, stamp_bind_run]
  split
  case isTrue hsong =>
    rw [Action.stamp_bind_run]
    split
    case h_1 time htime =>
      have hstamp : Timestamp.IsStamp time := ⟨now, htime⟩
      exact upsert_moves _ _ c hsong hstamp (fun _ => ⟨rfl, rfl⟩) fun _ => .inr hstamp
    case h_2 => exact .refl c
  case isFalse => exact .refl c

theorem setLiked_moves (now : Instant) (user : Int) (song : String) (liked : Bool)
    (c : Catalogue) : Moves c (some user) (setLiked now user song liked c).2 := by
  rw [setLiked, stamp_bind_run]
  split
  case isTrue hsong =>
    rw [Action.stamp_bind_run]
    split
    case h_1 time htime =>
      exact upsert_moves _ _ c hsong ⟨now, htime⟩ (fun _ => ⟨rfl, rfl⟩) fun _ => .inl rfl
    case h_2 => exact .refl c
  case isFalse => exact .refl c

end Interactions

namespace Playlists

theorem ofRow_of_holds {row : PlaylistRow} {rules : List GroupRecord} (h : row.Holds rules) :
    ofRow row = .ok ⟨row.id, row.ownerId, row.name, row.isSmart, rules, row.createdAt,
      row.updatedAt⟩ := by
  rw [ofRow, h.text, GroupRecord.ofText?_text_of_accepted h.typed h.accepted]

theorem readBack_run_snd (id : Int) (c : Catalogue) : (readBack id c).2 = c := by
  simp only [readBack, Action.get_bind_run, Action.lift_bind_run]
  cases fetch c id with
  | error _ => rfl
  | ok found => cases found <;> rfl

theorem accepted_of_checkRules {rules : List GroupRecord} {owner : Int}
    (h : checkRules rules owner = .ok ()) : GroupRecord.Accepted rules := by
  unfold checkRules at h
  split at h
  case h_1 e he => exact (GroupRecord.compileStrict_eq_ok.mp he).1
  case h_2 => cases h

theorem checkNew_eq_ok {playlist : NewPlaylist} (h : checkNew playlist = .ok ()) :
    GroupRecord.Accepted playlist.rules ∧ (playlist.isSmart = false → playlist.rules = []) := by
  unfold checkNew at h
  split at h
  case isTrue hsmart =>
    refine ⟨accepted_of_checkRules h, fun hplain => ?_⟩
    rw [hplain] at hsmart
    cases hsmart
  case isFalse =>
    split at h
    case isTrue hempty =>
      have hnil := List.isEmpty_iff.mp hempty
      exact ⟨fun group hgroup => by simp [hnil] at hgroup, fun _ => hnil⟩
    case isFalse => cases h

theorem isTidy_of_checkName {name found : String} (h : checkName name = .ok found) :
    IsTidy found := by
  simp only [checkName] at h
  split at h
  case isTrue => cases h
  case isFalse hempty =>
    obtain rfl := Except.ok.inj h
    exact isTidy_trim (Bool.eq_false_iff.mpr hempty)

theorem insert_bind_run {α : Type} (now : Instant) (owner : Int) (name : String) (isSmart : Bool)
    (rules : String) (f : Int → Action α) (c : Catalogue) :
    (insert now owner name isSmart rules >>= f) c =
      match Timestamp.stamp? now with
      | some time =>
        if (c.user? owner).isNone then (.error (.database .dangling), c)
        else f (c.playlistIds + 1) { c with
          playlists := c.playlists ++ [⟨c.playlistIds + 1, owner, name, isSmart, rules, time, time⟩]
          playlistIds := c.playlistIds + 1 }
      | none => (.error (.database (.undated .playlist .created)), c) := by
  rw [Action.bind_run, insert]
  simp only [Action.stamp_bind_run]
  cases Timestamp.stamp? now with
  | none => rfl
  | some time =>
    simp only [Action.get_bind_run, Action.failWhen_bind_run, Action.set_bind_run]
    cases (c.user? owner).isNone <;> rfl

theorem create_moves (now : Instant) {playlist : NewPlaylist}
    (htyped : ∀ group ∈ playlist.rules, group.Typed) (c : Catalogue) :
    Moves c (some playlist.ownerId) (create now playlist c).2 := by
  simp only [create, Action.lift_bind_run, insert_bind_run]
  cases hname : checkName playlist.name with
  | error _ => exact .refl c
  | ok name =>
    dsimp only
    cases hnew : checkNew playlist with
    | error _ => exact .refl c
    | ok _ =>
      cases Timestamp.stamp? now with
      | none => exact .refl c
      | some time =>
        dsimp only
        split
        case isTrue => exact .refl c
        case isFalse huser =>
          obtain ⟨haccepted, hplain⟩ := checkNew_eq_ok hnew
          rw [readBack_run_snd]
          refine .inr (.addPlaylist ⟨_, playlist.ownerId, name, playlist.isSmart, _, time, time⟩
            playlist.rules rfl ?_ (isTidy_of_checkName hname) ⟨htyped, haccepted, rfl, hplain⟩)
          exact Option.isSome_iff_ne_none.mpr fun h => huser (by rw [h]; rfl)

theorem ofRow_eq_ok {row : PlaylistRow} {playlist : Playlist} (h : ofRow row = .ok playlist) :
    playlist.ownerId = row.ownerId ∧ playlist.isSmart = row.isSmart ∧
      GroupRecord.listFormat.ofText? row.rules = some playlist.rules := by
  unfold ofRow at h
  split at h
  case h_1 rules hrules =>
    obtain rfl := Except.ok.inj h
    exact ⟨rfl, rfl, hrules⟩
  case h_2 => cases h

theorem owned_eq_ok {id user : Int} {playlist : Playlist} (h : owned c id user = .ok playlist) :
    ∃ row, c.playlist? id = some row ∧ ofRow row = .ok playlist ∧ row.ownerId = user := by
  obtain ⟨found, hfetch, h⟩ := Except.bind_eq_ok.mp h
  unfold fetch at hfetch
  split at hfetch
  case h_1 row hrow =>
    obtain ⟨kept, hkept, rfl⟩ := Except.map_eq_ok.mp hfetch
    dsimp only at h
    split at h
    case isTrue howner =>
      obtain rfl := Except.ok.inj h
      exact ⟨row, hrow, hkept, (ofRow_eq_ok hkept).1.symm.trans (beq_iff_eq.mp howner)⟩
    case isFalse => cases h
  case h_2 =>
    obtain rfl := Except.ok.inj hfetch
    cases h

theorem isSmart_of_checkSmart {playlist : Playlist} (h : checkSmart playlist = .ok ()) :
    playlist.isSmart = true := by
  unfold checkSmart at h
  split at h
  case isTrue hsmart => exact hsmart
  case isFalse => cases h

theorem modify_bind_run {α : Type} (id : Int) (change : PlaylistRow → PlaylistRow)
    (f : Unit → Action α) (c : Catalogue) : (modify id change >>= f) c =
      f () { c with
        playlists := c.playlists.map fun row => if row.id == id then change row else row } :=
  rfl

theorem updateRules_moves (now : Instant) (id user : Int) {rules : List GroupRecord}
    (htyped : ∀ group ∈ rules, group.Typed) (c : Catalogue) :
    Moves c (some user) (updateRules now id user rules c).2 := by
  simp only [updateRules, Action.get_bind_run, Action.lift_bind_run, Action.stamp_bind_run,
    modify_bind_run]
  cases howned : owned c id user with
  | error _ => exact .refl c
  | ok playlist =>
    dsimp only
    cases hsmart : checkSmart playlist with
    | error _ => exact .refl c
    | ok _ =>
      dsimp only
      cases hrules : checkRules rules playlist.ownerId with
      | error _ => exact .refl c
      | ok _ =>
        cases Timestamp.stamp? now with
        | none => exact .refl c
        | some time =>
          obtain ⟨row, hrow, hofRow, rfl⟩ := owned_eq_ok howned
          obtain rfl : row.id = id := by simpa using List.find?_some hrow
          dsimp only
          rw [readBack_run_snd]
          refine .inr (.changePlaylist row _ hrow (fun _ => ⟨rfl, rfl⟩) id fun old hold => ?_)
          refine ⟨rules, htyped, accepted_of_checkRules hrules, rfl, fun hplain => ?_⟩
          have hsame := (ofRow_eq_ok hofRow).2.1
          exact (Bool.false_ne_true (hplain.symm.trans (hsame.symm.trans (isSmart_of_checkSmart
            hsmart)))).elim

theorem rename_moves (now : Instant) (id user : Int) (name : String) (c : Catalogue) :
    Moves c (some user) (rename now id user name c).2 := by
  simp only [rename, Action.get_bind_run, Action.lift_bind_run, Action.stamp_bind_run,
    modify_bind_run]
  cases hname : checkName name with
  | error _ => exact .refl c
  | ok name =>
    have htidy := isTidy_of_checkName hname
    dsimp only
    cases howned : owned c id user with
    | error _ => exact .refl c
    | ok playlist =>
      cases Timestamp.stamp? now with
      | none => exact .refl c
      | some time =>
        obtain ⟨row, hrow, -, rfl⟩ := owned_eq_ok howned
        obtain rfl : row.id = id := by simpa using List.find?_some hrow
        dsimp only
        rw [readBack_run_snd]
        refine .inr (.changePlaylist row _ hrow (fun _ => ⟨rfl, rfl⟩) (fun _ => htidy)
          fun rules hrules => ?_)
        exact ⟨rules, hrules.typed, hrules.accepted, hrules.text, hrules.plain⟩

theorem delete_moves (id user : Int) (c : Catalogue) :
    Moves c (some user) (delete id user c).2 := by
  simp only [delete, Action.get_bind_run, Action.lift_bind_run]
  cases owned c id user with
  | error _ => exact .refl c
  | ok _ => exact .inr (.dropPlaylist id user)

end Playlists

end Setlist
