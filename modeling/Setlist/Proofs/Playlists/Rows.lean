import Setlist.Proofs.Catalogue.Isolation
import Setlist.Proofs.Playlists.Shelf

/-! # The playlists of a catalogue

The rows of playlists, with their rules as texts, are kept so that they make a shelf. Each call
on the rows is answered as from the shelf, and leaves the rows of the shelf after it.
-/

namespace Setlist

theorem Except.ok_bind {ε α β : Type} (a : α) (f : α → Except ε β) :
    ((.ok a : Except ε α) >>= f) = f a := rfl

/-- The rules as they are stored, if their text can be read. -/
def PlaylistRow.storedRules (row : PlaylistRow) : List GroupRecord :=
  (GroupRecord.listFormat.ofText? row.rules).getD []

theorem PlaylistRow.Holds.storedRules_eq {row : PlaylistRow} {rules : List GroupRecord}
    (h : row.Holds rules) : row.storedRules = rules := by
  rw [storedRules, h.text, GroupRecord.ofText?_text_of_accepted h.typed h.accepted,
    Option.getD_some]

/-- The playlist that a readable row stands for. -/
def PlaylistRow.stored (row : PlaylistRow) : Playlist :=
  ⟨row.id, row.ownerId, row.name, row.isSmart, row.storedRules, row.createdAt, row.updatedAt⟩

namespace PlaylistCall

def run : PlaylistCall → Catalogue → PlaylistAnswer × Catalogue
  | .create now new, c =>
    let ran := Playlists.create now new c
    (.playlist ran.1, ran.2)
  | .updateRules now id user rules, c =>
    let ran := Playlists.updateRules now id user rules c
    (.playlist ran.1, ran.2)
  | .rename now id user name, c =>
    let ran := Playlists.rename now id user name c
    (.playlist ran.1, ran.2)
  | .delete id user, c =>
    let ran := Playlists.delete id user c
    (.deleted ran.1, ran.2)
  | .get id user, c => (.found (Playlists.get? c id user), c)
  | .ofUser user, c => (.listed (Playlists.ofUser c user), c)

def Typed : PlaylistCall → Prop
  | .create _ new => ∀ group ∈ new.rules, group.Typed
  | .updateRules _ _ _ rules => ∀ group ∈ rules, group.Typed
  | _ => True

end PlaylistCall

namespace Catalogue

variable {c d : Catalogue}

/-- What users can observe of the playlists. -/
def shelf (c : Catalogue) : Shelf := ⟨fun id => (c.playlist? id).map (·.stored), c.playlistIds⟩

def hasUser (c : Catalogue) (id : Int) : Bool := (c.user? id).isSome

theorem ofRow_stored (hc : c.Readable) {row : PlaylistRow} (hrow : row ∈ c.playlists) :
    Playlists.ofRow row = .ok row.stored := by
  obtain ⟨rules, hrules⟩ := hc row hrow
  rw [Playlists.ofRow_of_holds hrules, PlaylistRow.stored, hrules.storedRules_eq]

@[simp] theorem playlist?_shelf (c : Catalogue) (id : Int) :
    c.shelf.playlist? id = (c.playlist? id).map (·.stored) := rfl

theorem fetch_eq (hc : c.Readable) (id : Int) :
    Playlists.fetch c id = .ok (c.shelf.playlist? id) := by
  rw [Playlists.fetch, playlist?_shelf]
  cases hrow : c.playlist? id with
  | none => rfl
  | some row =>
    dsimp only
    rw [ofRow_stored hc (List.mem_of_find?_eq_some hrow)]
    rfl

theorem get?_eq (hc : c.Readable) (id user : Int) :
    Playlists.get? c id user = .ok ((c.shelf.playlist? id).filter (·.ownerId == user)) := by
  rw [Playlists.get?, fetch_eq hc]
  rfl

theorem get?_of_readable (hc : c.Readable) (id user : Int) : Playlists.get? c id user =
    .ok (((c.playlist? id).filter (·.ownerId == user)).map (·.stored)) := by
  rw [get?_eq hc, playlist?_shelf, Option.filter_map]
  rfl

theorem owned_shelf (hc : c.Readable) (id user : Int) :
    Playlists.owned c id user = c.shelf.owned id user := by
  rw [Playlists.owned, fetch_eq hc, Shelf.owned]
  cases c.shelf.playlist? id with
  | none => rfl
  | some playlist =>
    by_cases howner : playlist.ownerId = user
    · simp [bind, Except.bind, pure, Except.pure, howner]
    · simp [bind, Except.bind, throw, throwThe, MonadExceptOf.throw, howner]

theorem readBack_shelf (hc : c.Readable) {id : Int} {playlist : Playlist}
    (hfound : c.shelf.playlist? id = some playlist) :
    Playlists.readBack id c = (.ok playlist, c) := by
  simp only [Playlists.readBack, Action.get_bind_run, Action.lift_bind_run, fetch_eq hc, hfound]
  rfl

theorem shelf_add (hc : c.Distinct) {row : PlaylistRow} (hid : row.id = c.playlistIds + 1) :
    ({ c with playlists := c.playlists ++ [row], playlistIds := c.playlistIds + 1 } :
      Catalogue).shelf = c.shelf.add row.stored := by
  have hfree : ∀ other ∈ c.playlists, ¬(other.id == row.id) = true := by
    intro other hother hsame
    have := (hc.playlists.bounds _ (List.mem_map_of_mem hother)).2
    have := beq_iff_eq.mp hsame
    omega
  refine Shelf.ext (funext fun id => ?_) rfl
  have hplace : row.stored.id = row.id := rfl
  rw [Shelf.playlist?_add, hplace, playlist?_shelf, playlist?_shelf, playlist?, List.find?_append]
  by_cases hrow : id = row.id
  · subst hrow
    rw [List.find?_eq_none.mpr hfree]
    simp
  · simp [hrow, Ne.symm hrow, playlist?]

theorem shelf_put {row : PlaylistRow} (hrow : c.playlist? row.id = some row)
    {change : PlaylistRow → PlaylistRow} (hid : ∀ r, (change r).id = r.id) :
    ({ c with playlists := c.playlists.map fun r => if r.id == row.id then change r else r } :
      Catalogue).shelf = c.shelf.put (change row).stored := by
  refine Shelf.ext (funext fun id => ?_) rfl
  -- rows are found by their ids, which the change leaves as they are
  have htest : (fun r => r.id == id) ∘ (fun r => if r.id == row.id then change r else r) =
      fun r : PlaylistRow => r.id == id := by
    funext r
    dsimp only [Function.comp]
    split <;> simp [hid]
  have hplace : (change row).stored.id = row.id := hid row
  rw [Shelf.playlist?_put, hplace, playlist?_shelf, playlist?_shelf, playlist?, List.find?_map,
    htest]
  split
  case isTrue hsame =>
    subst hsame
    rw [show c.playlists.find? (·.id == row.id) = some row from hrow]
    simp
  case isFalse hother =>
    cases hfound : c.playlists.find? (·.id == id) with
    | none => simp [playlist?, hfound]
    | some r =>
      have hr : r.id = id := beq_iff_eq.mp (List.find?_some hfound :)
      simp [playlist?, hfound, hr, hother]

theorem shelf_remove (hc : c.Distinct) {id user : Int} {playlist : Playlist}
    (howned : c.shelf.owned id user = .ok playlist) :
    ({ c with playlists := c.playlists.filter fun row => !(row.id == id && row.ownerId == user) } :
      Catalogue).shelf = c.shelf.remove id := by
  obtain ⟨hfound, rfl⟩ := Shelf.owned_eq_ok.mp howned
  obtain ⟨row, hrow, rfl⟩ := Option.map_eq_some_iff.mp hfound
  obtain ⟨hmem, rfl⟩ := (playlist?_eq_some hc).mp hrow
  have hrest : ((c.playlists.filter fun r =>
      !(r.id == row.id && r.ownerId == row.stored.ownerId)).map (·.id)).Nodup :=
    hc.playlists.nodup.sublist (List.filter_sublist.map _)
  refine Shelf.ext (funext fun id => ?_) rfl
  rw [Shelf.playlist?_remove, playlist?_shelf, playlist?_shelf]
  have hfind : (c.playlists.filter fun r =>
      !(r.id == row.id && r.ownerId == row.stored.ownerId)).find? (·.id == id) =
        if id = row.id then none else c.playlist? id := by
    ext r
    rw [find?_eq_some_iff_key hrest fun _ => beq_iff_eq, List.mem_filter]
    split
    case isTrue hid =>
      subst hid
      simp only [reduceCtorEq, iff_false]
      rintro ⟨⟨hr, hkept⟩, hid⟩
      obtain rfl := hc.eq_of_playlist? hrow hr hid
      simp [PlaylistRow.stored] at hkept
    case isFalse hid =>
      rw [playlist?_eq_some hc]
      refine ⟨fun h => ⟨h.1.1, h.2⟩, fun ⟨hr, hid'⟩ => ⟨⟨hr, ?_⟩, hid'⟩⟩
      simp [hid', hid]
  rw [playlist?, hfind]
  split <;> rfl

/-- The catalogues differ at most in their playlists. -/
structure AlikeElsewhere (c d : Catalogue) : Prop where
  users : d.users = c.users
  artists : d.artists = c.artists
  albums : d.albums = c.albums
  songs : d.songs = c.songs
  interactions : d.interactions = c.interactions

theorem AlikeElsewhere.refl (c : Catalogue) : AlikeElsewhere c c := by
  constructor <;> rfl

theorem AlikeElsewhere.sameSongs (h : AlikeElsewhere c d) (user : Int) : SameSongs user d c :=
  ⟨h.artists, h.albums, h.songs, fun i _ => by rw [h.interactions]⟩

/-- What an action on the rows comes to agrees with what comes of the shelf: it is refused and
changes nothing, or the playlist is placed on the shelf. -/
inductive Agrees (c : Catalogue) (place : Playlist → Shelf) :
    Except CatalogueError Playlist × Catalogue → Except CatalogueError Playlist → Prop where
  | refused (e : CatalogueError) : Agrees c place (.error e, c) (.error e)
  | accepted {playlist : Playlist} {d : Catalogue} : d.shelf = place playlist →
      AlikeElsewhere c d → Agrees c place (.ok playlist, d) (.ok playlist)

theorem Agrees.of_readBack {id : Int} {place : Playlist → Shelf} {playlist : Playlist}
    (hd : d.Readable) (hshelf : d.shelf = place playlist) (helse : AlikeElsewhere c d)
    (hplace : (place playlist).playlist? id = some playlist) :
    Agrees c place (Playlists.readBack id d) (.ok playlist) := by
  rw [readBack_shelf hd (hshelf ▸ hplace)]
  exact .accepted hshelf helse

theorem create_agrees (hc : c.Invariant) (now : Instant) {new : NewPlaylist}
    (htyped : ∀ group ∈ new.rules, group.Typed) :
    Agrees c c.shelf.add (Playlists.create now new c) (c.shelf.created c.hasUser now new) := by
  have hafter := (Playlists.create_moves now htyped c).invariant hc
  have huser : (c.user? new.ownerId).isNone = !c.hasUser new.ownerId := by simp [hasUser]
  simp only [Playlists.create, Action.lift_bind_run, Playlists.insert_bind_run, huser,
    Shelf.created, Shelf.stamped] at hafter ⊢
  cases hname : Playlists.checkName new.name with
  | error e => exact .refused e
  | ok name =>
    cases hnew : Playlists.checkNew new with
    | error e => exact .refused e
    | ok _ =>
      cases hstamp : Timestamp.stamp? now with
      | none => exact .refused _
      | some time =>
        cases hknown : c.hasUser new.ownerId with
        | false => exact .refused _
        | true =>
          simp only [hname, hnew, hstamp, hknown, Bool.not_true, Bool.false_eq_true, if_false,
            if_true, Playlists.readBack_run_snd] at hafter ⊢
          obtain ⟨haccepted, hplain⟩ := Playlists.checkNew_eq_ok hnew
          obtain ⟨rfl, -⟩ := Shelf.checkName_eq_ok hname
          have hholds : PlaylistRow.Holds ⟨c.playlistIds + 1, new.ownerId, Text.trim new.name,
            new.isSmart, GroupRecord.listFormat.text new.rules, time, time⟩ new.rules :=
            ⟨htyped, haccepted, rfl, hplain⟩
          have hfresh : c.shelf.fresh new time = PlaylistRow.stored ⟨c.playlistIds + 1,
              new.ownerId, Text.trim new.name, new.isSmart,
              GroupRecord.listFormat.text new.rules, time, time⟩ := by
            rw [PlaylistRow.stored, hholds.storedRules_eq]
            rfl
          refine .of_readBack hafter.readable ?_ (by constructor <;> rfl) ?_
          · rw [hfresh]
            exact shelf_add hc.distinct rfl
          · rw [Shelf.playlist?_add]
            exact if_pos rfl

theorem exists_row_of_owned {id user : Int} {playlist : Playlist}
    (howned : c.shelf.owned id user = .ok playlist) :
    ∃ row, c.playlist? id = some row ∧ row.id = id ∧ row.stored = playlist := by
  obtain ⟨hfound, -⟩ := Shelf.owned_eq_ok.mp howned
  obtain ⟨row, hrow, rfl⟩ := Option.map_eq_some_iff.mp hfound
  exact ⟨row, hrow, beq_iff_eq.mp (List.find?_some hrow :), rfl⟩

theorem updateRules_agrees (hc : c.Invariant) (now : Instant) (id user : Int)
    {rules : List GroupRecord} (htyped : ∀ group ∈ rules, group.Typed) :
    Agrees c c.shelf.put (Playlists.updateRules now id user rules c)
      (c.shelf.withRules now id user rules) := by
  have hafter := (Playlists.updateRules_moves now id user htyped c).invariant hc
  simp only [Playlists.updateRules, Action.get_bind_run, Action.lift_bind_run,
    Action.stamp_bind_run, Playlists.modify_bind_run, owned_shelf hc.readable, Shelf.withRules,
    Shelf.stamped] at hafter ⊢
  cases howned : c.shelf.owned id user with
  | error e => exact .refused e
  | ok playlist =>
    obtain ⟨-, rfl⟩ := Shelf.owned_eq_ok.mp howned
    simp only [howned, Except.ok_bind] at hafter ⊢
    cases hsmart : Playlists.checkSmart playlist with
    | error e => exact .refused e
    | ok _ =>
      cases hrules : Playlists.checkRules rules playlist.ownerId with
      | error e => exact .refused e
      | ok _ =>
        cases hstamp : Timestamp.stamp? now with
        | none => exact .refused _
        | some time =>
          simp only [hsmart, hrules, hstamp, Playlists.readBack_run_snd] at hafter ⊢
          obtain ⟨row, hrow, rfl, rfl⟩ := exists_row_of_owned howned
          have haccepted := Playlists.accepted_of_checkRules hrules
          have hstored : PlaylistRow.storedRules
              { row with rules := GroupRecord.listFormat.text rules, updatedAt := time } =
                rules := by
            rw [PlaylistRow.storedRules, GroupRecord.ofText?_text_of_accepted htyped haccepted,
              Option.getD_some]
          have hchanged : row.stored.withRules rules time = PlaylistRow.stored
              { row with rules := GroupRecord.listFormat.text rules, updatedAt := time } := by
            simp only [PlaylistRow.stored, Playlist.withRules, hstored]
          refine .of_readBack hafter.readable ?_ (by constructor <;> rfl) ?_
          · rw [hchanged]
            exact shelf_put hrow fun _ => rfl
          · rw [Shelf.playlist?_put]
            exact if_pos rfl

theorem rename_agrees (hc : c.Invariant) (now : Instant) (id user : Int) (name : String) :
    Agrees c c.shelf.put (Playlists.rename now id user name c)
      (c.shelf.renamed now id user name) := by
  have hafter := (Playlists.rename_moves now id user name c).invariant hc
  simp only [Playlists.rename, Action.get_bind_run, Action.lift_bind_run,
    Action.stamp_bind_run, Playlists.modify_bind_run, owned_shelf hc.readable, Shelf.renamed,
    Shelf.stamped] at hafter ⊢
  cases hname : Playlists.checkName name with
  | error e => exact .refused e
  | ok trimmed =>
    cases howned : c.shelf.owned id user with
    | error e => exact .refused e
    | ok playlist =>
      cases hstamp : Timestamp.stamp? now with
      | none => exact .refused _
      | some time =>
        simp only [hname, howned, hstamp, Playlists.readBack_run_snd] at hafter ⊢
        obtain ⟨row, hrow, rfl, rfl⟩ := exists_row_of_owned howned
        obtain ⟨rfl, -⟩ := Shelf.checkName_eq_ok hname
        refine .of_readBack hafter.readable ?_ (by constructor <;> rfl) ?_
        · exact shelf_put hrow fun _ => rfl
        · rw [Shelf.playlist?_put]
          exact if_pos rfl

theorem delete_run (hc : c.Invariant) (id user : Int) : Playlists.delete id user c =
    match c.shelf.owned id user with
    | .ok _ => (.ok (), { c with
        playlists := c.playlists.filter fun row => !(row.id == id && row.ownerId == user) })
    | .error e => (.error e, c) := by
  simp only [Playlists.delete, Action.get_bind_run, Action.lift_bind_run,
    owned_shelf hc.readable]
  cases c.shelf.owned id user <;> rfl

theorem mem_map_stored (hc : c.Distinct) {user : Int} {playlist : Playlist} :
    playlist ∈ (c.playlists.filter (·.ownerId == user)).map (·.stored) ↔
      c.shelf.playlist? playlist.id = some playlist ∧ playlist.ownerId = user := by
  simp only [List.mem_map, List.mem_filter, beq_iff_eq, playlist?_shelf, Option.map_eq_some_iff,
    playlist?_eq_some hc]
  constructor
  · rintro ⟨row, ⟨hrow, howner⟩, rfl⟩
    exact ⟨⟨row, ⟨hrow, rfl⟩, rfl⟩, howner⟩
  · rintro ⟨⟨row, ⟨hrow, -⟩, rfl⟩, howner⟩
    exact ⟨row, ⟨hrow, howner⟩, rfl⟩

/-- The rows of a user are listed as the shelf lists the user's playlists. -/
theorem ofUser_shelf (hc : c.Invariant) (hshelf : c.shelf.Sound) (user : Int) :
    Playlists.ofUser c user = .ok (c.shelf.ofUser user) := by
  have hstored : ((c.playlists.filter (·.ownerId == user)).mergeSort
      Playlists.recencyOrder).mapM Playlists.ofRow =
        .ok (((c.playlists.filter (·.ownerId == user)).mergeSort
          Playlists.recencyOrder).map (·.stored)) := by
    refine Except.mapM_eq_ok.mpr (List.forall₂_map_right_iff.mpr (List.forall₂_same.mpr ?_))
    intro row hrow
    exact ofRow_stored hc.readable (List.mem_of_mem_filter (List.mem_mergeSort.mp hrow))
  have hsorted : ((c.playlists.filter (·.ownerId == user)).mergeSort
      Playlists.recencyOrder).map (·.stored) =
        ((c.playlists.filter (·.ownerId == user)).map (·.stored)).mergeSort
          fun a b => a.recency b != .gt := List.map_mergeSort fun _ _ _ _ => rfl
  have hnodup : ((c.playlists.filter (·.ownerId == user)).map (·.stored)).Nodup := by
    apply List.Nodup.of_map (·.id)
    rw [List.map_map]
    exact hc.distinct.playlists.nodup.sublist (List.filter_sublist.map _)
  have hperm : ((c.playlists.filter (·.ownerId == user)).map (·.stored)).Perm
      (c.shelf.ofUser user) := by
    refine (List.perm_ext_iff_of_nodup hnodup (hshelf.nodup_ofUser user).of_map).mpr
      fun playlist => ?_
    rw [mem_map_stored hc.distinct, hshelf.mem_ofUser]
  have horder : Std.TransCmp Playlist.recency :=
    (.opposite : Std.TransCmp fun a b : Playlist =>
      compareLex (compareOn Playlist.updatedAt) (compareOn Playlist.id) b a)
  -- rows and shelf list the same playlists, and ids settle the ties, so they sort them alike
  rw [Playlists.ofUser, hstored, hsorted]
  refine congrArg Except.ok (mergeSort_eq_of_perm horder
    (hperm.trans (List.mergeSort_perm _ _)) fun a ha b hb hsame => ?_)
  obtain ⟨-, hid⟩ := Ordering.then_eq_eq.mp hsame
  have hfound := ((mem_map_stored hc.distinct).mp ha).1
  rw [← Std.LawfulEqOrd.eq_of_compare hid, ((mem_map_stored hc.distinct).mp hb).1] at hfound
  exact (Option.some.inj hfound).symm

/-- A call is answered as from the shelf, and leaves the rows of the shelf after it. If it is
refused, it leaves the whole catalogue as it is. -/
structure Refines (call : PlaylistCall) (c : Catalogue) : Prop where
  answer : (call.run c).1 = (Shelf.step c.hasUser call c.shelf).1
  shelf : (call.run c).2.shelf = (Shelf.step c.hasUser call c.shelf).2
  elsewhere : AlikeElsewhere c (call.run c).2
  unchanged : (call.run c).1.IsRefusal → (call.run c).2 = c

theorem Agrees.refines {call : PlaylistCall} {ran : Except CatalogueError Playlist × Catalogue}
    {result : Except CatalogueError Playlist} {place : Playlist → Shelf}
    (h : Agrees c place ran result) (hrun : call.run c = (.playlist ran.1, ran.2))
    (hstep : Shelf.step c.hasUser call c.shelf = (.playlist result, c.shelf.after place result)) :
    Refines call c := by
  cases h with
  | refused e =>
    constructor <;> simp only [hrun, hstep, Shelf.after, implies_true, AlikeElsewhere.refl]
  | accepted hplace helse =>
    constructor
    case answer => rw [hrun, hstep]
    case shelf =>
      rw [hrun, hstep]
      exact hplace
    case elsewhere =>
      rw [hrun]
      exact helse
    case unchanged =>
      rw [hrun]
      exact nofun

theorem run_refines (hc : c.Invariant) (hshelf : c.shelf.Sound) {call : PlaylistCall}
    (htyped : call.Typed) : Refines call c := by
  cases call with
  | create now new => exact (create_agrees hc now htyped).refines rfl rfl
  | updateRules now id user rules =>
    exact (updateRules_agrees hc now id user htyped).refines rfl rfl
  | rename now id user name => exact (rename_agrees hc now id user name).refines rfl rfl
  | delete id user =>
    have hrun := delete_run hc id user
    cases howned : c.shelf.owned id user with
    | error e =>
      rw [howned] at hrun
      constructor <;> simp only [PlaylistCall.run, Shelf.step, hrun, howned, implies_true,
        AlikeElsewhere.refl]
    | ok playlist =>
      rw [howned] at hrun
      constructor <;> simp only [PlaylistCall.run, Shelf.step, hrun, howned]
      case shelf => exact shelf_remove hc.distinct howned
      case elsewhere => constructor <;> rfl
      case unchanged => rintro ⟨⟩
  | get id user =>
    exact ⟨congrArg _ (get?_eq hc.readable id user), rfl, .refl c, fun _ => rfl⟩
  | ofUser user =>
    exact ⟨congrArg _ (ofUser_shelf hc hshelf user), rfl, .refl c, fun _ => rfl⟩

end Catalogue

end Setlist
