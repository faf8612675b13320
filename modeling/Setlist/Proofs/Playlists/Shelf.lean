import Setlist.Proofs.Catalogue.Steps

/-! # The shelf of playlists

What users can observe of playlists is a shelf: a map from ids to playlists, each with its owner,
and the number of ids that were given out. Calls are answered from the shelf alone.
-/

namespace Setlist

inductive PlaylistCall where
  | create (now : Instant) (new : NewPlaylist)
  | updateRules (now : Instant) (id user : Int) (rules : List GroupRecord)
  | rename (now : Instant) (id user : Int) (name : String)
  | delete (id user : Int)
  | get (id user : Int)
  | ofUser (user : Int)

/-- The id whose playlist the call changes or deletes, and the user who asks for it. -/
def PlaylistCall.target : PlaylistCall → Option (Int × Int)
  | updateRules _ id user _ => some (id, user)
  | rename _ id user _ => some (id, user)
  | delete id user => some (id, user)
  | _ => none

inductive PlaylistAnswer where
  | playlist (result : Except CatalogueError Playlist)
  | deleted (result : Except CatalogueError Unit)
  | found (result : Except CatalogueError (Option Playlist))
  | listed (result : Except CatalogueError (List Playlist))

/-- The call was not accepted. -/
def PlaylistAnswer.IsRefusal : PlaylistAnswer → Prop
  | playlist result => result.isOk = false
  | deleted result => result.isOk = false
  | found result => result.isOk = false
  | listed result => result.isOk = false

abbrev Exchange := PlaylistCall × PlaylistAnswer

namespace Exchange

def run {σ : Type} (step : PlaylistCall → σ → PlaylistAnswer × σ) :
    List PlaylistCall → σ → List Exchange × σ
  | [], s => ([], s)
  | call :: rest, s => (run step rest (step call s).2).map ((call, (step call s).1) :: ·) fun s => s

end Exchange

/-- The name is trimmed, a smart playlist has rules that compile, and a plain one has none. -/
structure Playlist.IsSound (playlist : Playlist) : Prop where
  named : playlist.name ≠ ""
  trimmed : Text.trim playlist.name = playlist.name
  smart : playlist.isSmart = true →
    ∃ e, GroupRecord.compileStrict playlist.ownerId playlist.rules = .ok e
  plain : playlist.isSmart = false → playlist.rules = []

def Playlist.withRules (playlist : Playlist) (rules : List GroupRecord) (time : String) :
    Playlist :=
  { playlist with rules := rules, updatedAt := time }

def Playlist.withName (playlist : Playlist) (name time : String) : Playlist :=
  { playlist with name := name, updatedAt := time }

def Playlist.recency (a b : Playlist) : Ordering :=
  (compare b.updatedAt a.updatedAt).then (compare b.id a.id)

/-- Playlists by their ids, and the number of ids that were given out. -/
@[ext] structure Shelf where
  playlist? : Int → Option Playlist
  used : Nat

namespace Shelf

def put (shelf : Shelf) (playlist : Playlist) : Shelf :=
  { shelf with playlist? := Function.update shelf.playlist? playlist.id (some playlist) }

def add (shelf : Shelf) (playlist : Playlist) : Shelf :=
  { shelf.put playlist with used := shelf.used + 1 }

def remove (shelf : Shelf) (id : Int) : Shelf :=
  { shelf with playlist? := Function.update shelf.playlist? id none }

def owned (shelf : Shelf) (id user : Int) : Except CatalogueError Playlist :=
  match shelf.playlist? id with
  | none => .error (.notFound .playlist (toString id))
  | some playlist => if playlist.ownerId = user then .ok playlist else .error .permissionDenied

def stamped (now : Instant) (dating : Dating) : Except CatalogueError String :=
  match Timestamp.stamp? now with
  | some time => .ok time
  | none => .error (.database (.undated .playlist dating))

def fresh (shelf : Shelf) (new : NewPlaylist) (time : String) : Playlist :=
  ⟨shelf.used + 1, new.ownerId, Text.trim new.name, new.isSmart, new.rules, time, time⟩

/-- The playlist that is created; some users exist. -/
def created (users : Int → Bool) (now : Instant) (new : NewPlaylist) (shelf : Shelf) :
    Except CatalogueError Playlist := do
  let _ ← Playlists.checkName new.name
  Playlists.checkNew new
  let time ← stamped now .created
  if users new.ownerId then return shelf.fresh new time else throw (.database .dangling)

/-- A smart playlist with other rules, which compile for its owner. -/
def withRules (now : Instant) (id user : Int) (rules : List GroupRecord) (shelf : Shelf) :
    Except CatalogueError Playlist := do
  let playlist ← shelf.owned id user
  Playlists.checkSmart playlist
  Playlists.checkRules rules user
  return playlist.withRules rules (← stamped now .updated)

def renamed (now : Instant) (id user : Int) (name : String) (shelf : Shelf) :
    Except CatalogueError Playlist := do
  let _ ← Playlists.checkName name
  let playlist ← shelf.owned id user
  return playlist.withName (Text.trim name) (← stamped now .updated)

def ofUser (shelf : Shelf) (user : Int) : List Playlist :=
  (((List.range shelf.used).filterMap fun count : ℕ => shelf.playlist? (count + 1)).filter
    (·.ownerId == user)).mergeSort fun a b => a.recency b != .gt

/-- The shelf after a playlist was made or changed, or after the refusal to do so. -/
def after (shelf : Shelf) (place : Playlist → Shelf) : Except CatalogueError Playlist → Shelf
  | .ok playlist => place playlist
  | .error _ => shelf

/-- The answer to a call and the shelf after it; some users exist. -/
def step (users : Int → Bool) : PlaylistCall → Shelf → PlaylistAnswer × Shelf
  | .create now new, shelf =>
    let result := shelf.created users now new
    (.playlist result, shelf.after shelf.add result)
  | .updateRules now id user rules, shelf =>
    let result := shelf.withRules now id user rules
    (.playlist result, shelf.after shelf.put result)
  | .rename now id user name, shelf =>
    let result := shelf.renamed now id user name
    (.playlist result, shelf.after shelf.put result)
  | .delete id user, shelf =>
    match shelf.owned id user with
    | .ok _ => (.deleted (.ok ()), shelf.remove id)
    | .error e => (.deleted (.error e), shelf)
  | .get id user, shelf => (.found (.ok ((shelf.playlist? id).filter (·.ownerId == user))), shelf)
  | .ofUser user, shelf => (.listed (.ok (shelf.ofUser user)), shelf)

/-- Each playlist stands in the place of its id, which was given out, and is sound. -/
structure Sound (shelf : Shelf) : Prop where
  placed : ∀ {id playlist}, shelf.playlist? id = some playlist → playlist.id = id
  given : ∀ {id playlist}, shelf.playlist? id = some playlist → 1 ≤ id ∧ id ≤ shelf.used
  sound : ∀ {id playlist}, shelf.playlist? id = some playlist → playlist.IsSound

variable {shelf : Shelf} {users : Int → Bool} {id : Int}

@[simp] theorem playlist?_put (shelf : Shelf) (playlist : Playlist) (id : Int) :
    (shelf.put playlist).playlist? id =
      if id = playlist.id then some playlist else shelf.playlist? id :=
  Function.update_apply _ _ _ _

@[simp] theorem playlist?_add (shelf : Shelf) (playlist : Playlist) (id : Int) :
    (shelf.add playlist).playlist? id =
      if id = playlist.id then some playlist else shelf.playlist? id :=
  Function.update_apply _ _ _ _

@[simp] theorem playlist?_remove (shelf : Shelf) (removed id : Int) :
    (shelf.remove removed).playlist? id = if id = removed then none else shelf.playlist? id :=
  Function.update_apply _ _ _ _

theorem Sound.mem_ofUser (h : shelf.Sound) {user : Int} {playlist : Playlist} :
    playlist ∈ shelf.ofUser user ↔
      shelf.playlist? playlist.id = some playlist ∧ playlist.ownerId = user := by
  rw [ofUser, List.mem_mergeSort, List.mem_filter, List.mem_filterMap, beq_iff_eq]
  refine and_congr_left fun _ => ⟨?_, fun hfound => ?_⟩
  · rintro ⟨count, -, hfound⟩
    rwa [h.placed hfound]
  · obtain ⟨hleast, hmost⟩ := h.given hfound
    have hplace : ((playlist.id - 1).toNat : Int) + 1 = playlist.id := by omega
    refine ⟨(playlist.id - 1).toNat, List.mem_range.mpr (by omega), ?_⟩
    rwa [hplace]

theorem Sound.nodup_ofUser (h : shelf.Sound) (user : Int) :
    ((shelf.ofUser user).map (·.id)).Nodup := by
  have hnodup : (shelf.ofUser user).Nodup := by
    refine (List.mergeSort_perm _ _).nodup_iff.mpr (.filter _ (.filterMap ?_ List.nodup_range))
    intro count other playlist hcount hother
    have := (h.placed hcount).symm.trans (h.placed hother)
    omega
  refine hnodup.map_on fun a ha b hb hid => ?_
  have hfound := (h.mem_ofUser.mp ha).1
  rw [hid, (h.mem_ofUser.mp hb).1] at hfound
  exact (Option.some.inj hfound).symm

theorem checkName_eq_ok {name found : String} (h : Playlists.checkName name = .ok found) :
    found = Text.trim name ∧ Text.trim name ≠ "" := by
  have hne := (Playlists.isTidy_of_checkName h).named
  simp only [Playlists.checkName] at h
  split at h
  case isTrue => cases h
  case isFalse =>
    obtain rfl := Except.ok.inj h
    exact ⟨rfl, hne⟩

theorem compileStrict_of_checkRules {rules : List GroupRecord} {owner : Int}
    (h : Playlists.checkRules rules owner = .ok ()) :
    ∃ e, GroupRecord.compileStrict owner rules = .ok e :=
  ⟨_, GroupRecord.compileStrict_eq_ok.mpr ⟨Playlists.accepted_of_checkRules h, rfl⟩⟩

theorem owned_eq_ok {user : Int} {playlist : Playlist} :
    shelf.owned id user = .ok playlist ↔
      shelf.playlist? id = some playlist ∧ playlist.ownerId = user := by
  unfold owned
  cases shelf.playlist? id with
  | none => simp
  | some found =>
    by_cases howner : found.ownerId = user
    · simp only [howner, if_true, Except.ok.injEq, Option.some.injEq]
      exact ⟨fun h => ⟨h, h ▸ howner⟩, And.left⟩
    · simp only [howner, if_false, Option.some.injEq, reduceCtorEq, false_iff]
      rintro ⟨rfl, hsame⟩
      exact howner hsame

theorem created_eq_ok {now : Instant} {new : NewPlaylist} {playlist : Playlist}
    (h : shelf.created users now new = .ok playlist) :
    Text.trim new.name ≠ "" ∧ Playlists.checkNew new = .ok () ∧
      ∃ time, playlist = shelf.fresh new time := by
  obtain ⟨_, hname, h⟩ := Except.bind_eq_ok.mp h
  obtain ⟨⟨⟩, hnew, h⟩ := Except.bind_eq_ok.mp h
  obtain ⟨time, -, h⟩ := Except.bind_eq_ok.mp h
  split at h
  case isTrue => exact ⟨(checkName_eq_ok hname).2, hnew, time, (Except.ok.inj h).symm⟩
  case isFalse => cases h

theorem withRules_eq_ok {now : Instant} {user : Int} {rules : List GroupRecord}
    {playlist : Playlist} (h : shelf.withRules now id user rules = .ok playlist) :
    ∃ old time, shelf.owned id user = .ok old ∧ old.isSmart = true ∧
      (∃ e, GroupRecord.compileStrict user rules = .ok e) ∧
        playlist = old.withRules rules time := by
  obtain ⟨old, howned, h⟩ := Except.bind_eq_ok.mp h
  obtain ⟨⟨⟩, hsmart, h⟩ := Except.bind_eq_ok.mp h
  obtain ⟨⟨⟩, hrules, h⟩ := Except.bind_eq_ok.mp h
  obtain ⟨time, -, h⟩ := Except.bind_eq_ok.mp h
  exact ⟨old, time, howned, Playlists.isSmart_of_checkSmart hsmart,
    compileStrict_of_checkRules hrules, (Except.ok.inj h).symm⟩

theorem renamed_eq_ok {now : Instant} {user : Int} {name : String} {playlist : Playlist}
    (h : shelf.renamed now id user name = .ok playlist) :
    ∃ old time, shelf.owned id user = .ok old ∧ Text.trim name ≠ "" ∧
      playlist = old.withName (Text.trim name) time := by
  obtain ⟨_, hname, h⟩ := Except.bind_eq_ok.mp h
  obtain ⟨old, howned, h⟩ := Except.bind_eq_ok.mp h
  obtain ⟨time, -, h⟩ := Except.bind_eq_ok.mp h
  exact ⟨old, time, howned, (checkName_eq_ok hname).2, (Except.ok.inj h).symm⟩

theorem compileStrict_of_checkNew {new : NewPlaylist} (h : Playlists.checkNew new = .ok ()) :
    (new.isSmart = true → ∃ e, GroupRecord.compileStrict new.ownerId new.rules = .ok e) ∧
      (new.isSmart = false → new.rules = []) := by
  obtain ⟨haccepted, hplain⟩ := Playlists.checkNew_eq_ok h
  exact ⟨fun _ => ⟨_, GroupRecord.compileStrict_eq_ok.mpr ⟨haccepted, rfl⟩⟩, hplain⟩

theorem isOk_eq_false {ε α : Type} {result : Except ε α} (h : ∀ a, result ≠ .ok a) :
    result.isOk = false := by
  cases result with
  | error e => rfl
  | ok a => exact absurd rfl (h a)

/-- A call that is not to be accepted: with a blank name, with rules that do not compile or are
for a plain playlist, or on an id under which the user has no playlist. -/
inductive Unacceptable (shelf : Shelf) : PlaylistCall → Prop where

  | blank (now : Instant) {new : NewPlaylist} : Text.trim new.name = "" →
      Unacceptable shelf (.create now new)

  | faulty (now : Instant) {new : NewPlaylist} {faults : List RuleFault} : new.isSmart = true →
      GroupRecord.compileStrict new.ownerId new.rules = .error faults →
      Unacceptable shelf (.create now new)

  | plain (now : Instant) {new : NewPlaylist} : new.isSmart = false → new.rules ≠ [] →
      Unacceptable shelf (.create now new)

  | blankName (now : Instant) (id user : Int) {name : String} : Text.trim name = "" →
      Unacceptable shelf (.rename now id user name)

  | faultyRules (now : Instant) (id : Int) {user : Int} {rules : List GroupRecord}
      {faults : List RuleFault} : GroupRecord.compileStrict user rules = .error faults →
      Unacceptable shelf (.updateRules now id user rules)

  | notSmart (now : Instant) {id : Int} (user : Int) (rules : List GroupRecord)
      {playlist : Playlist} : shelf.playlist? id = some playlist → playlist.isSmart = false →
      Unacceptable shelf (.updateRules now id user rules)

  | notOwned {call : PlaylistCall} {id user : Int} : call.target = some (id, user) →
      (∀ playlist, shelf.playlist? id = some playlist → playlist.ownerId ≠ user) →
      Unacceptable shelf call

theorem Unacceptable.isRefusal {call : PlaylistCall} (h : shelf.Unacceptable call)
    (users : Int → Bool) : (shelf.step users call).1.IsRefusal := by
  cases h with
  | blank now hblank => exact isOk_eq_false fun playlist hok => (created_eq_ok hok).1 hblank
  | faulty now hsmart hfaults =>
    refine isOk_eq_false fun playlist hok => ?_
    obtain ⟨-, hnew, -⟩ := created_eq_ok hok
    obtain ⟨e, he⟩ := (compileStrict_of_checkNew hnew).1 hsmart
    cases hfaults.symm.trans he
  | plain now hplain hrules =>
    refine isOk_eq_false fun playlist hok => ?_
    obtain ⟨-, hnew, -⟩ := created_eq_ok hok
    exact hrules ((compileStrict_of_checkNew hnew).2 hplain)
  | blankName now id user hblank =>
    refine isOk_eq_false fun playlist hok => ?_
    obtain ⟨-, -, -, hname, -⟩ := renamed_eq_ok hok
    exact hname hblank
  | faultyRules now id hfaults =>
    refine isOk_eq_false fun playlist hok => ?_
    obtain ⟨-, -, -, -, ⟨e, he⟩, -⟩ := withRules_eq_ok hok
    cases hfaults.symm.trans he
  | notSmart now user rules hfound hplain =>
    refine isOk_eq_false fun playlist hok => ?_
    obtain ⟨old, -, howned, hsmart, -⟩ := withRules_eq_ok hok
    obtain rfl := Option.some.inj (hfound.symm.trans (owned_eq_ok.mp howned).1)
    cases hplain.symm.trans hsmart
  | @notOwned _ id user htarget hnone =>
    have howned (playlist : Playlist) : shelf.owned id user ≠ .ok playlist := fun hok =>
      hnone playlist (owned_eq_ok.mp hok).1 (owned_eq_ok.mp hok).2
    cases call with
    | updateRules now id user rules =>
      cases htarget
      refine isOk_eq_false fun playlist hok => ?_
      obtain ⟨old, -, hold, -⟩ := withRules_eq_ok hok
      exact howned old hold
    | rename now id user name =>
      cases htarget
      refine isOk_eq_false fun playlist hok => ?_
      obtain ⟨old, -, hold, -⟩ := renamed_eq_ok hok
      exact howned old hold
    | delete id user =>
      cases htarget
      simp only [step]
      cases hold : shelf.owned id user with
      | error e => rfl
      | ok old => exact absurd hold (howned old)
    | _ => cases htarget

end Shelf

end Setlist
