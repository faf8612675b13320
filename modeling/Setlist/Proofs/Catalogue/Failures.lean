import Setlist.Proofs.Catalogue.Integrity
import Setlist.Proofs.Playlists.Runs

/-! # Failed actions

An action checks, writes and reads back what it wrote, one after the other. All that it can be
refused for is checked before it writes, and what it wrote can be read, so that a failure leaves
the tables as they were. The one exception is a count of plays that the database cannot keep.
-/

namespace Setlist

open Catalogue

namespace Action

variable {α : Type} {excuse : CatalogueError → Prop} {c : Catalogue}

/-- A failure of the action leaves the tables as they are, or there is an excuse for it. -/
def IsAtomic (excuse : CatalogueError → Prop) (c : Catalogue) (action : Action α) : Prop :=
  ∀ e, (action c).1 = .error e → (action c).2 = c ∨ excuse e

theorem isAtomic_of_same {action : Action α} (h : (action c).2 = c) : action.IsAtomic excuse c :=
  fun _ _ => .inl h

theorem isAtomic_of_ok {action : Action α} {a : α} (h : (action c).1 = .ok a) :
    action.IsAtomic excuse c := by
  intro e he
  cases h.symm.trans he

theorem isAtomic_get {f : Catalogue → Action α} (h : (f c).IsAtomic excuse c) :
    (get >>= f).IsAtomic excuse c := h

theorem isAtomic_failWhen {test : Bool} {e : CatalogueError} {f : Unit → Action α}
    (h : test = false → (f ()).IsAtomic excuse c) : (failWhen test e >>= f).IsAtomic excuse c := by
  cases test with
  | true => exact isAtomic_of_same rfl
  | false => exact h rfl

theorem isAtomic_stamp {now : Instant} {entity : Entity} {dating : Dating} {f : String → Action α}
    (h : ∀ time, (f time).IsAtomic excuse c) : (stamp now entity dating >>= f).IsAtomic excuse c := by
  unfold stamp
  split
  case h_1 time _ => exact h time
  case h_2 => exact isAtomic_of_same rfl

theorem readBack_run_of_eq {read : Catalogue → Option α} {a : α} (h : read c = some a)
    (entity : Entity) (id : String) : readBack read entity id c = (.ok a, c) := by
  simp only [readBack, get_bind_run, h]
  rfl

theorem isAtomic_written {d : Catalogue} {read : Catalogue → Option α} {entity : Entity}
    {id : String} {a : α} (h : read d = some a) :
    ((set d : Action PUnit) >>= fun _ => readBack read entity id).IsAtomic excuse c := by
  have hrun : (((set d : Action PUnit) >>= fun _ => readBack read entity id) c).1 = .ok a := by
    rw [set_bind_run, readBack_run_of_eq h]
  exact isAtomic_of_ok hrun

theorem discard_run (action : Action α) (c : Catalogue) :
    (discard action : Action Unit) c = ((action c).1.map fun _ => (), (action c).2) := by
  have hbind : (discard action : Action Unit) = action >>= fun _ => pure () := by
    rw [discard, map_const]
    exact map_eq_pure_bind _ _
  rw [hbind, bind_run]
  rcases action c with ⟨result, d⟩
  cases result <;> rfl

theorem discard_run_snd (action : Action α) (c : Catalogue) :
    ((discard action : Action Unit) c).2 = (action c).2 := by rw [discard_run]

theorem isAtomic_discard {action : Action α} (h : action.IsAtomic excuse c) :
    (discard action : Action Unit).IsAtomic excuse c := by
  intro e he
  rw [discard_run] at he ⊢
  cases hresult : (action c).1 with
  | error e' =>
    rw [hresult] at he
    obtain rfl := Except.error.inj he
    exact h e' hresult
  | ok a =>
    rw [hresult] at he
    cases he

end Action

variable {excuse : CatalogueError → Prop} {c : Catalogue}

theorem Catalogue.Numbered.find?_of_mem {α : Type} {key : α → Int} {rows : List α} {count : Nat}
    (h : Numbered (rows.map key) count) {row : α} (hrow : row ∈ rows) :
    rows.find? (key · == key row) = some row :=
  (find?_eq_some_iff_key h.nodup fun _ => beq_iff_eq).mpr ⟨hrow, rfl⟩

theorem Catalogue.Numbered.find?_added {α : Type} {key : α → Int} {rows : List α} {count : Nat}
    {new : α} (h : Numbered (rows.map key) count) (hnew : key new = count + 1) :
    (rows ++ [new]).find? (key · == key new) = some new := by
  have hadded : Numbered ((rows ++ [new]).map key) (count + 1) := by
    rw [List.map_append, List.map_singleton, hnew]
    exact h.add
  exact hadded.find?_of_mem (List.mem_append_right _ List.mem_cons_self)

theorem Users.create_atomic (hc : c.Distinct) (now : Instant) (name : String) :
    (create now name).IsAtomic excuse c := by
  refine Action.isAtomic_failWhen fun _ => Action.isAtomic_stamp fun time => Action.isAtomic_get ?_
  exact Action.isAtomic_written (hc.users.find?_added rfl)

theorem Artists.create_atomic (hc : c.Distinct) (now : Instant) (artist : NewArtist) :
    (create now artist).IsAtomic excuse c := by
  refine Action.isAtomic_stamp fun time => Action.isAtomic_get ?_
  refine Action.isAtomic_failWhen fun _ => ?_
  exact Action.isAtomic_written (congrArg (Option.map ofRow) (hc.artists.find?_added rfl))

theorem Artists.findOrCreate_atomic (hc : c.Distinct) (now : Instant) (name : String) :
    (findOrCreate now name).IsAtomic excuse c := by
  refine Action.isAtomic_get ?_
  split
  case h_1 artist _ => exact Action.isAtomic_of_ok rfl
  case h_2 => exact create_atomic hc now ⟨name⟩

theorem Albums.create_atomic (hc : c.Distinct) (now : Instant) (album : NewAlbum) :
    (create now album).IsAtomic excuse c := by
  refine Action.isAtomic_stamp fun time => Action.isAtomic_get ?_
  refine Action.isAtomic_failWhen fun _ => Action.isAtomic_failWhen fun _ => ?_
  exact Action.isAtomic_written (congrArg (Option.map (ofRow _)) (hc.albums.find?_added rfl))

namespace Songs

theorem exists_fetched (hc : c.Invariant) {row : SongRow} (hrow : row ∈ c.songs) :
    ∃ song, (fetch chunkSize c none [row.id]).head? = some song := by
  obtain ⟨song, hshown⟩ := exists_shown hc none hrow
  rw [fetch_eq hc chunkSize (List.nodup_singleton _), List.filterMap_cons_some hshown]
  exact ⟨song, rfl⟩

theorem create_atomic (hc : c.Invariant) (now : Instant) (song : NewSong) (id : String) :
    (create now song id).IsAtomic excuse c := by
  rcases create_cases now song id c with ⟨e, he⟩ | ⟨row, -, hfresh, hmade⟩
  · exact Action.isAtomic_of_same (by rw [he])
  · let d : Catalogue := { c with songs := c.songs ++ [row] }
    have hd : d.Invariant := hfresh.step.invariant hc
    obtain ⟨shown, hread⟩ := exists_fetched hd (List.mem_append_right _ List.mem_cons_self)
    exact Action.isAtomic_of_ok (by rw [hmade, Action.readBack_run_of_eq hread])

theorem delete_atomic (id : String) : (delete id).IsAtomic excuse c := by
  refine Action.isAtomic_get (Action.isAtomic_failWhen fun _ => ?_)
  exact Action.isAtomic_of_ok rfl

end Songs

namespace Interactions

/-- With some plays more, the count is past the integers of the database. -/
def IsSpent (c : Catalogue) (user : Int) (song : String) (plays : Int) : Prop :=
  ∃ i, c.interaction? user song = some i ∧ Interaction.countLimit ≤ i.playCount + plays

def IsLost (c : Catalogue) (user : Int) (song : String) (plays : Int)
    (e : CatalogueError) : Prop :=
  e = .database .countTooLarge ∧ IsSpent c user song plays

theorem readBack_run {user : Int} {song : String} {i : Interaction}
    (h : c.interaction? user song = some i) : readBack user song c =
      (if Interaction.countLimit ≤ i.playCount then .error (.database .countTooLarge) else .ok i,
        c) := by
  simp only [readBack, Action.get_bind_run, Action.lift_bind_run, get?, h]
  by_cases hcount : Interaction.countLimit ≤ i.playCount
  · simp only [if_pos hcount]
  · simp only [if_neg hcount, Action.pure_run]

theorem find?_changed {α : Type} {test : α → Bool} {change : α → α} {rows : List α}
    (hkeeps : ∀ row, test (change row) = test row) :
    (rows.map fun row => if test row then change row else row).find? test =
      (rows.find? test).map change := by
  induction rows with
  | nil => rfl
  | cons row rest ih =>
    cases hrow : test row with
    | true => simp [hrow, hkeeps]
    | false => simp [hrow, ih]

theorem upsert_found {fresh i : Interaction} {change : Interaction → Interaction}
    (hkeeps : ∀ i, (change i).userId = i.userId ∧ (change i).songId = i.songId)
    (hi : c.interaction? fresh.userId fresh.songId = some i) : upsert fresh change c =
      (if Interaction.countLimit ≤ (change i).playCount then .error (.database .countTooLarge)
        else .ok (change i),
      { c with
        interactions := c.interactions.map fun i =>
          if isBetween fresh.userId fresh.songId i then change i else i }) := by
  let d : Catalogue := { c with
    interactions := c.interactions.map fun i =>
      if isBetween fresh.userId fresh.songId i then change i else i }
  have htest (row : Interaction) : isBetween fresh.userId fresh.songId (change row) =
      isBetween fresh.userId fresh.songId row := by
    rw [isBetween, isBetween, (hkeeps row).1, (hkeeps row).2]
  have hany : c.interactions.any (isBetween fresh.userId fresh.songId) = true :=
    List.any_eq_true.mpr (List.find?_isSome.mp (Option.isSome_iff_exists.mpr ⟨i, hi⟩))
  have hfound : d.interaction? fresh.userId fresh.songId = some (change i) :=
    (find?_changed htest).trans (congrArg (Option.map change) hi)
  rw [upsert, Action.get_bind_run]
  exact (congrFun (if_pos hany) c).trans (readBack_run hfound)

theorem upsert_added {fresh : Interaction} (change : Interaction → Interaction)
    (hnone : c.interaction? fresh.userId fresh.songId = none)
    (hfresh : fresh.playCount < Interaction.countLimit) : upsert fresh change c =
      if (c.user? fresh.userId).isNone then (.error (.database .dangling), c)
      else (.ok fresh, { c with interactions := c.interactions ++ [fresh] }) := by
  let d : Catalogue := { c with interactions := c.interactions ++ [fresh] }
  have hany : ¬c.interactions.any (isBetween fresh.userId fresh.songId) = true := by
    rw [List.any_eq_true, ← List.find?_isSome]
    exact Option.not_isSome_iff_eq_none.mpr hnone
  have hfound : d.interaction? fresh.userId fresh.songId = some fresh := by
    have hself : [fresh].find? (isBetween fresh.userId fresh.songId) = some fresh := by
      simp [isBetween]
    change (c.interactions ++ [fresh]).find? (isBetween fresh.userId fresh.songId) = _
    rw [List.find?_append, hself]
    exact congrArg (Option.or · (some fresh)) hnone
  have hread : readBack fresh.userId fresh.songId d = (.ok fresh, d) := by
    rw [readBack_run hfound, if_neg (not_le.mpr hfresh)]
  rw [upsert, Action.get_bind_run]
  refine (congrFun (if_neg hany) c).trans ?_
  rw [Action.failWhen_bind_run]
  exact if_congr Iff.rfl rfl hread

theorem upsert_atomic (fresh : Interaction) {change : Interaction → Interaction} {plays : Int}
    (hkeeps : ∀ i, (change i).userId = i.userId ∧ (change i).songId = i.songId)
    (hcounts : ∀ i, (change i).playCount ≤ i.playCount + plays)
    (hfresh : fresh.playCount < Interaction.countLimit) :
    (upsert fresh change).IsAtomic (IsLost c fresh.userId fresh.songId plays) c := by
  intro e he
  cases hbefore : c.interaction? fresh.userId fresh.songId with
  | some i =>
    rw [upsert_found hkeeps hbefore] at he
    by_cases hcount : Interaction.countLimit ≤ (change i).playCount
    · rw [if_pos hcount] at he
      exact .inr ⟨(Except.error.inj he).symm, i, hbefore, hcount.trans (hcounts i)⟩
    · rw [if_neg hcount] at he
      cases he
  | none =>
    rw [upsert_added change hbefore hfresh] at he ⊢
    split at he
    case isTrue huser =>
      rw [if_pos huser]
      exact .inl rfl
    case isFalse => cases he

theorem isAtomic_stamp {α : Type} {now : Instant} {song : String} {f : String → Action α}
    (h : ∀ time, (f time).IsAtomic excuse c) : (stamp now song >>= f).IsAtomic excuse c := by
  intro e he
  rw [stamp_bind_run] at he ⊢
  split at he
  case isTrue hsong =>
    rw [if_pos hsong]
    exact Action.isAtomic_stamp h e he
  case isFalse hsong =>
    rw [if_neg hsong]
    exact .inl rfl

theorem recordPlay_atomic (now : Instant) (user : Int) (song : String) :
    (recordPlay now user song).IsAtomic (IsLost c user song 1) c :=
  isAtomic_stamp fun time => upsert_atomic ⟨user, song, false, 1, time, time⟩
    (fun _ => ⟨rfl, rfl⟩) (fun _ => min_le_left _ _) (by decide : (1 : Int) < Interaction.countLimit)

theorem setLiked_atomic (now : Instant) (user : Int) (song : String) (liked : Bool) :
    (setLiked now user song liked).IsAtomic (IsLost c user song 0) c :=
  isAtomic_stamp fun time => upsert_atomic ⟨user, song, liked, 0, time, time⟩
    (fun _ => ⟨rfl, rfl⟩) (fun i => (Int.add_zero i.playCount).ge) (by decide : (0 : Int) < Interaction.countLimit)

end Interactions

namespace Playlists

/-- A call that is answered as from the shelf changes nothing if it is refused. -/
theorem isAtomic_of_refines {α : Type} {action : Action α} {call : PlaylistCall}
    (answer : Except CatalogueError α → PlaylistAnswer)
    (hrun : call.run c = (answer (action c).1, (action c).2))
    (hrefused : ∀ e, (answer (.error e)).IsRefusal) (h : Refines call c) :
    action.IsAtomic excuse c := by
  intro e he
  have hunchanged := h.unchanged
  rw [hrun, he] at hunchanged
  exact .inl (hunchanged (hrefused e))

variable (hc : c.Reachable)
include hc

theorem refines_of_reachable {call : PlaylistCall} (htyped : call.Typed) : Refines call c :=
  run_refines hc.invariant hc.shelf_sound htyped

theorem create_atomic (now : Instant) {new : NewPlaylist}
    (htyped : ∀ group ∈ new.rules, group.Typed) : (create now new).IsAtomic excuse c := by
  have hrefines : Refines (.create now new) c := refines_of_reachable hc htyped
  exact isAtomic_of_refines .playlist (by rw [PlaylistCall.run]) (fun _ => rfl) hrefines

theorem updateRules_atomic (now : Instant) (id user : Int) {rules : List GroupRecord}
    (htyped : ∀ group ∈ rules, group.Typed) :
    (updateRules now id user rules).IsAtomic excuse c := by
  have hrefines : Refines (.updateRules now id user rules) c := refines_of_reachable hc htyped
  exact isAtomic_of_refines .playlist (by rw [PlaylistCall.run]) (fun _ => rfl) hrefines

theorem rename_atomic (now : Instant) (id user : Int) (name : String) :
    (rename now id user name).IsAtomic excuse c := by
  have hrefines : Refines (.rename now id user name) c := refines_of_reachable hc trivial
  exact isAtomic_of_refines .playlist (by rw [PlaylistCall.run]) (fun _ => rfl) hrefines

theorem delete_atomic (id user : Int) : (delete id user).IsAtomic excuse c := by
  have hrefines : Refines (.delete id user) c := refines_of_reachable hc trivial
  exact isAtomic_of_refines .deleted (by rw [PlaylistCall.run]) (fun _ => rfl) hrefines

end Playlists

namespace Change

def run : Change → Action Unit
  | createUser now name => discard (Users.create now name)
  | createArtist now artist => discard (Artists.create now artist)
  | findOrCreateArtist now name => discard (Artists.findOrCreate now name)
  | createAlbum now album => discard (Albums.create now album)
  | createSong now song id => discard (Songs.create now song id)
  | deleteSong id => Songs.delete id
  | recordPlay now user song => discard (Interactions.recordPlay now user song)
  | setLiked now user song liked => discard (Interactions.setLiked now user song liked)
  | createPlaylist now playlist => discard (Playlists.create now playlist)
  | updateRules now id user rules => discard (Playlists.updateRules now id user rules)
  | renamePlaylist now id user name => discard (Playlists.rename now id user name)
  | deletePlaylist id user => Playlists.delete id user

/-- The change writes a count of plays that is past the integers of the database. -/
def Exhausts (c : Catalogue) : Change → Prop
  | recordPlay _ user song => Interactions.IsSpent c user song 1
  | setLiked _ user song _ => Interactions.IsSpent c user song 0
  | _ => False

theorem run_atomic (hc : c.Reachable) {change : Change} (htyped : change.Typed) :
    change.run.IsAtomic (fun e => e = .database .countTooLarge ∧ change.Exhausts c) c := by
  have hinvariant := hc.invariant
  cases change with
  | createUser now name =>
    exact Action.isAtomic_discard (Users.create_atomic hinvariant.distinct now name)
  | createArtist now artist =>
    exact Action.isAtomic_discard (Artists.create_atomic hinvariant.distinct now artist)
  | findOrCreateArtist now name =>
    exact Action.isAtomic_discard (Artists.findOrCreate_atomic hinvariant.distinct now name)
  | createAlbum now album =>
    exact Action.isAtomic_discard (Albums.create_atomic hinvariant.distinct now album)
  | createSong now song id =>
    exact Action.isAtomic_discard (Songs.create_atomic hinvariant now song id)
  | deleteSong id => exact Songs.delete_atomic id
  | recordPlay now user song =>
    exact Action.isAtomic_discard (Interactions.recordPlay_atomic now user song)
  | setLiked now user song liked =>
    exact Action.isAtomic_discard (Interactions.setLiked_atomic now user song liked)
  | createPlaylist now playlist =>
    exact Action.isAtomic_discard (Playlists.create_atomic hc now htyped)
  | updateRules now id user rules =>
    exact Action.isAtomic_discard (Playlists.updateRules_atomic hc now id user htyped)
  | renamePlaylist now id user name =>
    exact Action.isAtomic_discard (Playlists.rename_atomic hc now id user name)
  | deletePlaylist id user => exact Playlists.delete_atomic hc id user

theorem run_snd (change : Change) (c : Catalogue) : (change.run c).2 = change.apply c := by
  cases change with
  | deleteSong | deletePlaylist => rfl
  | _ => rw [run, Action.discard_run_snd, apply]

end Change

namespace Catalogue

/-- Every row that stands in a table is found by its key and can be read. Of an interaction this
is so as far as the database can keep the count of plays. -/
structure ReadsBack (c : Catalogue) : Prop where
  users : ∀ user ∈ c.users, c.user? user.id = some user
  artists : ∀ row ∈ c.artists, Artists.get? c row.id = some (Artists.ofRow row)
  albums : ∀ row ∈ c.albums, Albums.get? c row.id = some (Albums.ofRow c row)
  songs : ∀ row ∈ c.songs, ∃ song,
    (Songs.fetch Songs.chunkSize c none [row.id]).head? = some song
  interactions : ∀ i ∈ c.interactions, i.playCount < Interaction.countLimit →
    Interactions.get? c i.userId i.songId = .ok (some i)
  playlists : ∀ row ∈ c.playlists, Playlists.fetch c row.id = .ok (some row.stored)

theorem Invariant.readsBack (hc : c.Invariant) : c.ReadsBack where
  users _ huser := hc.distinct.users.find?_of_mem huser
  artists _ hrow := congrArg (Option.map _) (hc.distinct.artists.find?_of_mem hrow)
  albums _ hrow := congrArg (Option.map _) (hc.distinct.albums.find?_of_mem hrow)
  songs _ hrow := Songs.exists_fetched hc hrow
  interactions i hi hcount := by
    have hfound : c.interaction? i.userId i.songId = some i :=
      (interaction?_eq_some hc.distinct).mpr ⟨hi, rfl, rfl⟩
    simp only [Interactions.get?, hfound, if_neg (not_le.mpr hcount)]
  playlists row hrow := by
    have hfound : c.playlist? row.id = some row := hc.distinct.playlists.find?_of_mem hrow
    rw [fetch_eq hc.readable, playlist?_shelf, hfound, Option.map_some]

/-- A call that fails leaves every table as it was, unless it wrote a count of plays that is past
the integers of the database. Whatever a call has written, each row can be read back after it. -/
theorem failed_call_leaves_no_trace (hc : c.Reachable) {change : Change} (htyped : change.Typed) :
    (∀ e, (change.run c).1 = .error e → (change.run c).2 = c ∨
      e = .database .countTooLarge ∧ change.Exhausts c) ∧
    (change.run c).2.ReadsBack :=
  ⟨change.run_atomic hc htyped, change.run_snd c ▸
    ((Change.apply_moves htyped c).invariant hc.invariant).readsBack⟩

/-- A song at another path, for which the id of the first one is drawn. -/
def sameId : Change := .createSong ⟨0, 0⟩ ⟨"D", .ofInt 1, none, 1, "other", 1, 1⟩ "song"

theorem failed_call_leaves_no_trace_ofSong : (ofSong "A" "B" "C").Reachable ∧
    (sameId.run (ofSong "A" "B" "C")).1 = .error (.database (.repeated .songId)) ∧
      (sameId.run (ofSong "A" "B" "C")).2 = ofSong "A" "B" "C" := by
  have hfails : (sameId.run (ofSong "A" "B" "C")).1 = .error (.database (.repeated .songId)) := by
    have hfault : (match (sameId.run (ofSong "A" "B" "C")).1 with
        | .error (.database fault) => fault == .repeated .songId
        | _ => false) = true := by decide +kernel
    split at hfault
    case h_1 hrun => rw [hrun, beq_iff_eq.mp hfault]
    case h_2 => cases hfault
  have htyped : sameId.Typed := trivial
  refine ⟨reachable_ofSong "A" "B" "C", hfails, ?_⟩
  have hfailed := (failed_call_leaves_no_trace (reachable_ofSong "A" "B" "C") htyped).1
  rcases hfailed _ hfails with hsame | ⟨-, hexhausts⟩
  · exact hsame
  · exact hexhausts.elim

end Catalogue

namespace Interactions

variable {now : Instant} {time : String} {user : Int} {song : String}

theorem recordPlay_first (hsong : (c.song? song).isSome) (htime : Timestamp.stamp? now = some time)
    (hnone : c.interaction? user song = none) : recordPlay now user song c =
      if (c.user? user).isNone then (.error (.database .dangling), c)
      else (.ok ⟨user, song, false, 1, time, time⟩,
        { c with interactions := c.interactions ++ [⟨user, song, false, 1, time, time⟩] }) := by
  rw [recordPlay, stamp_bind_run, if_pos hsong, Action.stamp_bind_run, htime]
  exact upsert_added _ hnone (by decide : (1 : Int) < Interaction.countLimit)

/-- A play of a song that the user has played is counted, and answered if the count can be read. -/
theorem recordPlay_again {i : Interaction} (hsong : (c.song? song).isSome)
    (htime : Timestamp.stamp? now = some time) (hi : c.interaction? user song = some i) :
    let change (i : Interaction) : Interaction :=
      { i with playCount := played i.playCount, updatedAt := time }
    recordPlay now user song c =
      (if Interaction.countLimit ≤ played i.playCount then .error (.database .countTooLarge)
        else .ok (change i),
      { c with
        interactions := c.interactions.map fun i =>
          if isBetween user song i then change i else i }) := by
  intro change
  rw [recordPlay, stamp_bind_run, if_pos hsong, Action.stamp_bind_run, htime]
  exact upsert_found (fun _ => ⟨rfl, rfl⟩) hi

theorem setLiked_again {i : Interaction} (hsong : (c.song? song).isSome)
    (htime : Timestamp.stamp? now = some time) (hi : c.interaction? user song = some i)
    (liked : Bool) :
    let change (i : Interaction) : Interaction := { i with liked := liked }
    setLiked now user song liked c =
      (if Interaction.countLimit ≤ i.playCount then .error (.database .countTooLarge)
        else .ok (change i),
      { c with
        interactions := c.interactions.map fun i =>
          if isBetween user song i then change i else i }) := by
  intro change
  rw [setLiked, stamp_bind_run, if_pos hsong, Action.stamp_bind_run, htime]
  exact upsert_found (fun _ => ⟨rfl, rfl⟩) hi

end Interactions

namespace Catalogue

/-- One song that its only user has played as many times, all at one time. -/
def playedSong (count : Int) : Catalogue :=
  { ofSong "A" "B" "C" with
    interactions := [⟨1, "song", false, count, "1970-01-01 00:00:00", "1970-01-01 00:00:00"⟩] }

theorem isSome_song?_ofSong : ((ofSong "A" "B" "C").song? "song").isSome := by decide +kernel

theorem stamp?_zero : Timestamp.stamp? ⟨0, 0⟩ = some "1970-01-01 00:00:00" := by decide +kernel

theorem recordPlay_ofSong :
    (Interactions.recordPlay ⟨0, 0⟩ 1 "song" (ofSong "A" "B" "C")).2 = playedSong 1 := by
  have hnone : (ofSong "A" "B" "C").interaction? 1 "song" = none := by decide +kernel
  have huser : ¬((ofSong "A" "B" "C").user? 1).isNone = true := by decide +kernel
  have hempty : (ofSong "A" "B" "C").interactions = [] := by decide +kernel
  rw [Interactions.recordPlay_first isSome_song?_ofSong stamp?_zero hnone, if_neg huser, hempty]
  rfl

section

variable (count : Int)

theorem isSome_song?_playedSong : ((playedSong count).song? "song").isSome := by
  simpa only [playedSong, song?] using isSome_song?_ofSong

theorem interaction?_playedSong : (playedSong count).interaction? 1 "song" = some
    ⟨1, "song", false, count, "1970-01-01 00:00:00", "1970-01-01 00:00:00"⟩ := by
  simp [interaction?, playedSong]

theorem recordPlay_playedSong :
    let plays := Interactions.played count
    Interactions.recordPlay ⟨0, 0⟩ 1 "song" (playedSong count) =
      (if Interaction.countLimit ≤ plays then .error (.database .countTooLarge)
        else .ok ⟨1, "song", false, plays, "1970-01-01 00:00:00", "1970-01-01 00:00:00"⟩,
      playedSong plays) := by
  rw [Interactions.recordPlay_again (isSome_song?_playedSong count) stamp?_zero
    (interaction?_playedSong count)]
  simp [playedSong, isBetween]

end

theorem reachable_playedSong {n : Nat} (h : (n : Int) < Interaction.countLimit) :
    (playedSong (n + 1)).Reachable := by
  induction n with
  | zero =>
    exact recordPlay_ofSong ▸
      .change (.recordPlay ⟨0, 0⟩ 1 "song") trivial (reachable_ofSong "A" "B" "C")
  | succ n ih =>
    have hplayed : Interactions.played (n + 1) = n + 1 + 1 := min_eq_left (by omega)
    have hnext : (Change.recordPlay ⟨0, 0⟩ 1 "song").apply (playedSong (n + 1)) =
        playedSong (n + 1 + 1) := by
      rw [Change.apply, recordPlay_playedSong, hplayed]
    push_cast
    exact hnext ▸ .change (.recordPlay ⟨0, 0⟩ 1 "song") trivial (ih (by omega))

/-- The change fails on a reachable catalogue, and leaves another one. -/
structure LeavesTrace (change : Change) (c : Catalogue) : Prop where
  reachable : c.Reachable
  failed : (change.run c).1 = .error (.database .countTooLarge)
  changed : (change.run c).2 ≠ c

/-- The play after the greatest count that the database can keep is written, though the call
fails: the count cannot be read back. Neither can it when the song is then liked. -/
theorem play_past_limit_leaves_trace :
    LeavesTrace (.recordPlay ⟨0, 0⟩ 1 "song") (playedSong (2 ^ 63 - 1)) ∧
      LeavesTrace (.setLiked ⟨0, 0⟩ 1 "song" true) (playedSong (2 ^ 63)) := by
  constructor
  · have hplayed : Interactions.played (2 ^ 63 - 1) = 2 ^ 63 := by decide
    constructor
    case reachable =>
      exact reachable_playedSong (by decide : ((2 ^ 63 - 2 : Nat) : Int) < Interaction.countLimit)
    case failed =>
      rw [Change.run, Action.discard_run, recordPlay_playedSong, hplayed]
      rfl
    case changed =>
      rw [Change.run, Action.discard_run_snd, recordPlay_playedSong, hplayed]
      intro hsame
      have hcounts := congrArg (fun c => c.interactions.map (·.playCount)) hsame
      simp [playedSong] at hcounts
  · have hrun := Interactions.setLiked_again (isSome_song?_playedSong (2 ^ 63)) stamp?_zero
      (interaction?_playedSong (2 ^ 63)) true
    constructor
    case reachable =>
      exact reachable_playedSong (by decide : ((2 ^ 63 - 1 : Nat) : Int) < Interaction.countLimit)
    case failed =>
      rw [Change.run, Action.discard_run, hrun]
      rfl
    case changed =>
      rw [Change.run, Action.discard_run_snd, hrun]
      intro hsame
      have hliked := congrArg (fun c => c.interactions.map (·.liked)) hsame
      simp [playedSong, isBetween] at hliked

end Catalogue

end Setlist
