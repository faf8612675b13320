import Setlist.Proofs.Cache.Soundness
import Setlist.Proofs.Playlists.Rows
import Setlist.Proofs.Query.Plans
import Setlist.Session

/-! # The cache cannot be seen

A run of calls by any users gives the same answers with the shared cache as with none, as long
as the digests tell the contents apart that are met on the way.
-/

namespace Setlist

/-- What a handle of a session can be asked for, and what can be asked of its cache. -/
inductive Operation where
  | create (now : Instant) (name : String) (rules : List GroupRecord)
  | updateRules (now : Instant) (id : Int) (rules : List GroupRecord)
  | rename (now : Instant) (id : Int) (name : String)
  | delete (id : Int)
  | compiled (id : Int)
  | songs (now : Instant) (id : Int) (order : SortOrder) (request : Option PageRequest)
  | getOrCompile (playlist : Int) (rules : List GroupRecord)
  | invalidate (playlist : Int)
  | clear

inductive Answer where
  | playlist (result : Except CatalogueError Playlist)
  | deleted (result : Except CatalogueError Unit)
  | compiled (result : Except CatalogueError Expression)
  | songs (result : Except CatalogueError SongPage)
  | expression (result : Except (List RuleFault) Expression)
  | done

/-- An operation as a user asks for it; the next one may be another user's. -/
structure Call where
  user : Int64
  operation : Operation

namespace Session

/-- The compiled rules that are stored for a playlist of the user, if there is such a one and
it is smart. -/
def compileStored (c : Catalogue) (user id : Int) : Except CatalogueError Expression :=
  match (c.playlist? id).filter (·.ownerId == user) with
  | none => .error (.notFound .playlist (toString id))
  | some row =>
    if row.isSmart = false then .error (.invalidInput (.notSmart id))
    else
      match GroupRecord.compileStrict user row.storedRules with
      | .ok expression => .ok expression
      | .error faults => .error (.rules faults)

end Session

namespace Call

def run (call : Call) (s : Session) : Answer × Session :=
  let user := call.user.toInt
  match call.operation with
  | .create now name rules =>
    let (result, s) := Session.createPlaylist now user name rules s
    (.playlist result, s)
  | .updateRules now id rules =>
    let (result, s) := Session.updateRules now user id rules s
    (.playlist result, s)
  | .rename now id name =>
    let (result, s) := Session.rename now user id name s
    (.playlist result, s)
  | .delete id =>
    let (result, s) := Session.deletePlaylist user id s
    (.deleted result, s)
  | .compiled id =>
    let (result, s) := Session.compiled user id s
    (.compiled result, s)
  | .songs now id order request =>
    let (result, s) := Session.songs now user id order request s
    (.songs result, s)
  | .getOrCompile playlist rules =>
    let (result, cache) := s.cache.getOrCompile playlist user rules
    (.expression (result.map (·.expression)), { s with cache := cache })
  | .invalidate playlist => (.done, { s with cache := s.cache.invalidate playlist })
  | .clear => (.done, { s with cache := s.cache.clear })

/-- The answer to a call if nothing were kept compiled. -/
def plainAnswer (call : Call) (s : Session) : Answer :=
  let user := call.user.toInt
  match call.operation with
  | .create now name rules =>
    .playlist (Playlists.create now ⟨user, name, true, rules⟩ s.catalogue).1
  | .updateRules now id rules => .playlist (Playlists.updateRules now id user rules s.catalogue).1
  | .rename now id name => .playlist (Playlists.rename now id user name s.catalogue).1
  | .delete id => .deleted (Playlists.delete id user s.catalogue).1
  | .compiled id => .compiled (Session.compileStored s.catalogue user id)
  | .songs now id order request =>
    .songs <| (Session.compileStored s.catalogue user id).bind fun e =>
      s.catalogue.evaluate s.plan e order (s.page request) now
  | .getOrCompile _ rules => .expression (GroupRecord.compileStrict user rules)
  | .invalidate _ => .done
  | .clear => .done

def change? (call : Call) : Option Change :=
  let user := call.user.toInt
  match call.operation with
  | .create now name rules => some (.createPlaylist now ⟨user, name, true, rules⟩)
  | .updateRules now id rules => some (.updateRules now id user rules)
  | .rename now id name => some (.renamePlaylist now id user name)
  | .delete id => some (.deletePlaylist id user)
  | _ => none

def plainAfter (call : Call) (s : Session) : Session :=
  match call.change? with
  | some change => { s with catalogue := change.apply s.catalogue }
  | none => s

/-- The content whose digest the call takes. -/
def met (call : Call) (s : Session) : Option (List GroupRecord) :=
  match call.operation with
  | .compiled id | .songs _ id _ _ =>
    let owned := (s.catalogue.playlist? id).filter (·.ownerId == call.user.toInt)
    (owned.filter (·.isSmart)).map (·.storedRules)
  | .getOrCompile _ rules => some rules
  | _ => none

end Call

namespace Session

variable {s : Session} {met : Int64 → List GroupRecord → Prop}

theorem bind_run {α β : Type} (x : Request α) (f : α → Request β) (s : Session) : (x >>= f) s =
    match x s with
    | (.ok a, s') => f a s'
    | (.error e, s') => (.error e, s') := by
  change (match x s with | (a, s') => ExceptT.bindCont f a s') = _
  obtain ⟨_ | _, _⟩ := x s <;> rfl

theorem ask_run {α : Type} (read : Catalogue → Except CatalogueError α) (s : Session) :
    ask read s = (read s.catalogue, s) := by
  have hget : (get : Request Session) s = (.ok s, s) := rfl
  rw [ask, bind_run, hget]
  dsimp only
  cases read s.catalogue <;> rfl

/-- Compiling a stored playlist takes the digest of its rules if there is one to compile, and
nothing at all else. -/
theorem compiled_run (hc : s.catalogue.Readable) (user id : Int) : compiled user id s =
    match (s.catalogue.playlist? id).filter (·.ownerId == user) with
    | none => (.error (.notFound .playlist (toString id)), s)
    | some row =>
      if row.isSmart = false then (.error (.invalidInput (.notSmart id)), s)
      else
        let (result, cache) := s.cache.getOrCompile id user row.storedRules
        (match result with
          | .ok entry => .ok entry.expression
          | .error faults => .error (.rules faults), { s with cache := cache }) := by
  rw [compiled, bind_run, playlist, ask_run, Catalogue.get?_of_readable hc]
  cases (s.catalogue.playlist? id).filter (·.ownerId == user) with
  | none => rfl
  | some row =>
    simp only [Option.map_some, PlaylistRow.stored]
    cases hsmart : row.isSmart with
    | false => rfl
    | true =>
      change (match (s.cache.getOrCompile id user row.storedRules).1 with
        | .ok entry => (pure entry.expression : Request Expression)
        | .error faults => throw (CatalogueError.rules faults))
          { s with cache := (s.cache.getOrCompile id user row.storedRules).2 } = _
      cases (s.cache.getOrCompile id user row.storedRules).1 <;> rfl

theorem act_run {α : Type} (action : Action α) (s : Session) : act action s =
    ((action s.catalogue).1, { s with catalogue := (action s.catalogue).2 }) := rfl

theorem act_invalidate_run {α : Type} (action : Action α) (id : Int) (s : Session) :
    (do let a ← act action; changeCache (·.invalidate id); return a : Request α) s =
      ((action s.catalogue).1, { s with
        catalogue := (action s.catalogue).2
        cache := if (action s.catalogue).1.isOk then s.cache.invalidate id else s.cache }) := by
  rw [bind_run, act_run]
  obtain ⟨_ | _, _⟩ := action s.catalogue <;> rfl

theorem deletePlaylist_run (user id : Int) (s : Session) : deletePlaylist user id s =
    ((Playlists.delete id user s.catalogue).1, { s with
      catalogue := (Playlists.delete id user s.catalogue).2
      cache := if (Playlists.delete id user s.catalogue).1.isOk then s.cache.invalidate id
        else s.cache }) := by
  rw [deletePlaylist, bind_run, act_run]
  obtain ⟨_ | _, _⟩ := Playlists.delete id user s.catalogue <;> rfl

theorem songs_run (now : Instant) {user id : Int} (order : SortOrder)
    (request : Option PageRequest) {s t : Session} {result : Except CatalogueError Expression}
    (h : compiled user id s = (result, t)) : songs now user id order request s =
      (result.bind fun e => t.catalogue.evaluate t.plan e order (t.page request) now, t) := by
  rw [songs, bind_run, h]
  cases result with
  | error e => rfl
  | ok e => exact ask_run (fun c => c.evaluate t.plan e order (t.page request) now) t

end Session

namespace Call

variable {met : Int64 → List GroupRecord → Prop}

def Typed (call : Call) : Prop := ∀ change ∈ call.change?, change.Typed

theorem compileStored_eq {c : Catalogue} {user id : Int} {row : PlaylistRow}
    (hrow : (c.playlist? id).filter (·.ownerId == user) = some row) (hsmart : row.isSmart = true) :
    Session.compileStored c user id =
      match GroupRecord.compileStrict user row.storedRules with
      | .ok expression => .ok expression
      | .error faults => .error (.rules faults) := by
  rw [Session.compileStored, hrow]
  simp [hsmart]

theorem compiled_transparent {s : Session} (hc : s.catalogue.Readable)
    (hsound : s.cache.Sound met) (user : Int64) (id : Int)
    (hown : ∀ row, (s.catalogue.playlist? id).filter (·.ownerId == user.toInt) = some row →
      row.isSmart = true → HasOwnDigest met user row.storedRules) :
    ∃ cache : Cache, Session.compiled user.toInt id s =
      (Session.compileStored s.catalogue user.toInt id, { s with cache := cache }) := by
  rw [Session.compiled_run hc]
  cases hrow : (s.catalogue.playlist? id).filter (·.ownerId == user.toInt) with
  | none => exact ⟨s.cache, by rw [Session.compileStored, hrow]⟩
  | some row =>
    cases hsmart : row.isSmart with
    | false => exact ⟨s.cache, by simp [Session.compileStored, hrow, hsmart]⟩
    | true =>
      refine ⟨(s.cache.getOrCompile id user.toInt row.storedRules).2, ?_⟩
      have hnot : ¬row.isSmart = false := by simp [hsmart]
      rw [compileStored_eq hrow hsmart, ← hsound.getOrCompile id (hown row hrow hsmart)]
      dsimp only
      rw [if_neg hnot]
      cases (s.cache.getOrCompile id user.toInt row.storedRules).1 <;> rfl

theorem compiled_sound {s : Session} (hc : s.catalogue.Readable) (hsound : s.cache.Sound met)
    (user : Int64) (id : Int)
    (hthis : ∀ row, (s.catalogue.playlist? id).filter (·.ownerId == user.toInt) = some row →
      row.isSmart = true → met user row.storedRules) :
    ∃ cache : Cache, cache.Sound met ∧
      (Session.compiled user.toInt id s).2 = { s with cache := cache } := by
  rw [Session.compiled_run hc]
  cases hrow : (s.catalogue.playlist? id).filter (·.ownerId == user.toInt) with
  | none => exact ⟨s.cache, hsound, rfl⟩
  | some row =>
    cases hsmart : row.isSmart with
    | false => exact ⟨s.cache, hsound, by simp [hsmart]⟩
    | true =>
      refine ⟨_, hsound.after_getOrCompile id (hthis row hrow hsmart), ?_⟩
      simp [hsmart]

theorem met_compiled {owned : Option PlaylistRow} {row : PlaylistRow} (hrow : owned = some row)
    (hsmart : row.isSmart = true) :
    row.storedRules ∈ (owned.filter (·.isSmart)).map (·.storedRules) := by
  simp [hrow, hsmart]

/-- One call answers as without a cache, if nothing else was met with the digest it takes. -/
theorem run_answer {call : Call} (s : Session) {cache : Cache} (hc : s.catalogue.Readable)
    (hsound : cache.Sound met) (hown : ∀ groups ∈ call.met s, HasOwnDigest met call.user groups) :
    (call.run { s with cache := cache }).1 = call.plainAnswer s := by
  obtain ⟨user, operation⟩ := call
  cases operation with
  | create now name rules =>
    simp only [run, Session.createPlaylist, Session.act_run, plainAnswer]
  | updateRules now id rules =>
    simp only [run, Session.updateRules, Session.act_invalidate_run, plainAnswer]
  | rename now id name => simp only [run, Session.rename, Session.act_run, plainAnswer]
  | delete id => simp only [run, Session.deletePlaylist_run, plainAnswer]
  | compiled id =>
    obtain ⟨after, hrun⟩ := compiled_transparent (s := { s with cache := cache }) hc hsound user id
      fun row hrow hsmart => hown _ (met_compiled hrow hsmart)
    simp only [run, hrun, plainAnswer]
  | songs now id order request =>
    obtain ⟨after, hrun⟩ := compiled_transparent (s := { s with cache := cache }) hc hsound user id
      fun row hrow hsmart => hown _ (met_compiled hrow hsmart)
    simp only [run, Session.songs_run now order request hrun, plainAnswer]
    rfl
  | getOrCompile playlist rules =>
    exact congrArg Answer.expression (hsound.getOrCompile playlist (hown rules rfl))
  | invalidate playlist => rfl
  | clear => rfl

theorem run_after {call : Call} (s : Session) {cache : Cache} (hc : s.catalogue.Readable)
    (hsound : cache.Sound met) (hthis : ∀ groups ∈ call.met s, met call.user groups) :
    ∃ after : Cache, after.Sound met ∧
      (call.run { s with cache := cache }).2 = { call.plainAfter s with cache := after } := by
  obtain ⟨user, operation⟩ := call
  cases operation with
  | create now name rules =>
    refine ⟨cache, hsound, ?_⟩
    simp only [run, Session.createPlaylist, Session.act_run, plainAfter, change?, Change.apply]
  | updateRules now id rules =>
    simp only [run, Session.updateRules, Session.act_invalidate_run, plainAfter, change?,
      Change.apply]
    refine ⟨_, ?_, rfl⟩
    split
    case isTrue => exact hsound.invalidate id
    case isFalse => exact hsound
  | rename now id name =>
    refine ⟨cache, hsound, ?_⟩
    simp only [run, Session.rename, Session.act_run, plainAfter, change?, Change.apply]
  | delete id =>
    simp only [run, Session.deletePlaylist_run, plainAfter, change?, Change.apply]
    refine ⟨_, ?_, rfl⟩
    split
    case isTrue => exact hsound.invalidate id
    case isFalse => exact hsound
  | compiled id =>
    exact compiled_sound (s := { s with cache := cache }) hc hsound user id
      fun row hrow hsmart => hthis _ (met_compiled hrow hsmart)
  | songs now id order request =>
    obtain ⟨after, hafter, hrun⟩ := compiled_sound (s := { s with cache := cache }) hc hsound user
      id fun row hrow hsmart => hthis _ (met_compiled hrow hsmart)
    refine ⟨after, hafter, ?_⟩
    simp only [run, Session.songs_run now order request Prod.mk.eta.symm, hrun, plainAfter, change?]
  | getOrCompile playlist rules =>
    exact ⟨_, hsound.after_getOrCompile playlist (hthis rules rfl), rfl⟩
  | invalidate playlist => exact ⟨_, hsound.invalidate playlist, rfl⟩
  | clear => exact ⟨_, Cache.Sound.clear cache, rfl⟩

end Call

namespace Run

def answers : List Call → Session → List Answer
  | [], _ => []
  | call :: rest, s => (call.run s).1 :: answers rest (call.run s).2

def plainAnswers : List Call → Session → List Answer
  | [], _ => []
  | call :: rest, s => call.plainAnswer s :: plainAnswers rest (call.plainAfter s)

def final : List Call → Session → Session
  | [], s => s
  | call :: rest, s => final rest (call.run s).2

def plainFinal : List Call → Session → Session
  | [], s => s
  | call :: rest, s => plainFinal rest (call.plainAfter s)

/-- The contents whose digests are taken on the way, with the users they are compiled for. -/
def contents : List Call → Session → List (Int64 × List GroupRecord)
  | [], _ => []
  | call :: rest, s => (call.met s).toList.map (call.user, ·) ++ contents rest (call.plainAfter s)

variable {met : Int64 → List GroupRecord → Prop}

theorem reachable_plainAfter {call : Call} (htyped : call.Typed) {s : Session}
    (hs : s.catalogue.Reachable) : (call.plainAfter s).catalogue.Reachable := by
  unfold Call.plainAfter
  split
  case h_1 change hchange => exact .change change (htyped change hchange) hs
  case h_2 => exact hs

theorem reachable_plainFinal {calls : List Call} (htyped : ∀ call ∈ calls, call.Typed) :
    ∀ {s : Session}, s.catalogue.Reachable → (plainFinal calls s).catalogue.Reachable := by
  induction calls with
  | nil => exact id
  | cons call rest ih =>
    intro s hs
    exact ih (fun other hother => htyped other (List.mem_cons_of_mem _ hother))
      (reachable_plainAfter (htyped call List.mem_cons_self) hs)

theorem run_transparent (hmet : Distinguished met) {calls : List Call}
    (htyped : ∀ call ∈ calls, call.Typed) : ∀ {s : Session} {cache : Cache},
    s.catalogue.Reachable → cache.Sound met →
      (∀ content ∈ contents calls s, met content.1 content.2) →
        answers calls { s with cache := cache } = plainAnswers calls s ∧
          (final calls { s with cache := cache }).catalogue = (plainFinal calls s).catalogue := by
  induction calls with
  | nil => exact fun _ _ _ => ⟨rfl, rfl⟩
  | cons call rest ih =>
    intro s cache hs hsound hcontents
    have hthis : ∀ groups ∈ call.met s, met call.user groups := fun groups hgroups =>
      hcontents (call.user, groups) (List.mem_append_left _ (by simpa using hgroups))
    have hanswer := Call.run_answer s hs.invariant.readable hsound fun groups hgroups =>
      hmet.hasOwnDigest (hthis groups hgroups)
    obtain ⟨after, hafter, hrun⟩ := Call.run_after s hs.invariant.readable hsound hthis
    obtain ⟨hanswers, hfinal⟩ := ih
      (fun other hother => htyped other (List.mem_cons_of_mem _ hother))
      (reachable_plainAfter (htyped call List.mem_cons_self) hs) hafter
      fun content hcontent => hcontents content (List.mem_append_right _ hcontent)
    rw [answers, plainAnswers, final, plainFinal, hanswer, hrun]
    exact ⟨congrArg _ hanswers, hfinal⟩

theorem contents_prefix {before calls : List Call} (h : before <+: calls) (s : Session) :
    contents before s ⊆ contents calls s := by
  induction before generalizing calls s with
  | nil => exact List.nil_subset _
  | cons call rest ih =>
    obtain ⟨more, rfl⟩ := h
    intro content hcontent
    rcases List.mem_append.mp hcontent with h | h
    · exact List.mem_append_left _ h
    · exact List.mem_append_right _ (ih (List.prefix_append rest more) _ h)

/-- In a run of calls that begins with an empty cache, whatever its capacity, every call
answers as it would without a cache. What is stored for a playlist can be read at any time. -/
theorem cache_transparent {start : Session} {capacity : Nat} (hstart : start.catalogue.Reachable)
    (hcache : start.cache = .empty capacity) {calls : List Call}
    (htyped : ∀ call ∈ calls, call.Typed)
    (hmet : Distinguished fun user groups => (user, groups) ∈ contents calls start) :
    answers calls start = plainAnswers calls start ∧
      ∀ before, before <+: calls →
        (final before start).catalogue = (plainFinal before start).catalogue ∧
          ∀ row ∈ (final before start).catalogue.playlists,
            GroupRecord.listFormat.ofText? row.rules = some row.storedRules := by
  obtain ⟨plan, catalogue, cache, defaultPerPage, maxPerPage⟩ := start
  subst hcache
  refine ⟨(run_transparent hmet htyped hstart (Cache.Sound.empty capacity) fun _ h => h).1, ?_⟩
  intro before hbefore
  have htyped' : ∀ call ∈ before, call.Typed := fun call hcall => htyped call (hbefore.subset hcall)
  have hfinal := (run_transparent hmet htyped' hstart (Cache.Sound.empty capacity) fun _ h =>
    contents_prefix hbefore _ h).2
  refine ⟨hfinal, fun row hrow => ?_⟩
  rw [hfinal] at hrow
  obtain ⟨rules, hrules⟩ := (reachable_plainFinal htyped' hstart).invariant.readable row hrow
  rw [hrules.storedRules_eq, hrules.text,
    GroupRecord.ofText?_text_of_accepted hrules.typed hrules.accepted]

end Run

namespace Session

/-- The rules of one playlist, that the title is `a`. -/
def titledRules : List GroupRecord := Content.titled none (.named "song.title")

theorem typed_titledRules : ∀ group ∈ titledRules, group.Typed := GroupRecord.typed_single

theorem accepted_titledRules : GroupRecord.Accepted titledRules := by
  intro group hgroup record hrecord
  obtain rfl := List.mem_singleton.mp hgroup
  obtain rfl := List.mem_singleton.mp hrecord
  exact ⟨_, rfl⟩

/-- There are two users and one song, and the first user has one playlist. -/
def shared : Catalogue :=
  [.createUser ⟨0, 0⟩ "other",
    .createPlaylist ⟨0, 0⟩ ⟨1, "titled", true, titledRules⟩].foldl
      (fun c (change : Change) => change.apply c) (.ofSong "A" "B" "C")

/-- A session of two users that no one has used yet. -/
def ofTwoUsers : Session := ⟨.byRows, shared, .empty 1, 50, 100⟩

theorem reachable_shared : shared.Reachable := by
  refine .foldl ?_ (Catalogue.reachable_ofSong "A" "B" "C")
  simp only [List.forall_mem_cons]
  exact ⟨trivial, typed_titledRules, nofun⟩

theorem reachable_ofTwoUsers : ofTwoUsers.catalogue.Reachable := by
  dsimp only [ofTwoUsers]
  exact reachable_shared

theorem storedRules_ofTwoUsers {row : PlaylistRow} (h : row ∈ ofTwoUsers.catalogue.playlists) :
    row.storedRules = titledRules := by
  have htexts : ofTwoUsers.catalogue.playlists.map (·.rules) =
      [GroupRecord.listFormat.text titledRules] := by decide +kernel
  have htext : row.rules ∈ ofTwoUsers.catalogue.playlists.map (·.rules) := List.mem_map_of_mem h
  rw [htexts, List.mem_singleton] at htext
  rw [PlaylistRow.storedRules, htext,
    GroupRecord.ofText?_text_of_accepted typed_titledRules accepted_titledRules, Option.getD_some]

theorem eq_titledRules_of_met {user : Int64} {now : Instant} {id : Int} {order : SortOrder}
    {request : Option PageRequest} {groups : List GroupRecord}
    (h : groups ∈ Call.met ⟨user, .songs now id order request⟩ ofTwoUsers) :
    groups = titledRules := by
  simp only [Call.met, Option.mem_def, Option.map_eq_some_iff, Option.filter_eq_some_iff] at h
  obtain ⟨row, ⟨⟨hfound, -⟩, -⟩, rfl⟩ := h
  have hdistinct := reachable_ofTwoUsers.invariant.distinct
  exact storedRules_ofTwoUsers ((Catalogue.playlist?_eq_some hdistinct).mp hfound).1

end Session

namespace Run

open Session

/-- The rules of the second user, that the artist is `B`. -/
def artistRules : List GroupRecord :=
  [⟨none, [⟨none, .named "artist.name", "is", [.string "B"]⟩]⟩]

/-- The first user asks for the songs of the playlist again and again, and the second one has other
rules compiled in between. -/
def inTurn : List Call :=
  [⟨1, .songs ⟨0, 0⟩ 1 .byTitle none⟩, ⟨1, .songs ⟨60, 0⟩ 1 .byTitle none⟩,
    ⟨2, .getOrCompile 2 artistRules⟩, ⟨1, .songs ⟨120, 0⟩ 1 .byTitle none⟩]

theorem mem_contents_inTurn {content : Int64 × List GroupRecord}
    (h : content ∈ contents inTurn ofTwoUsers) :
    content = (1, titledRules) ∨ content = (2, artistRules) := by
  have hstored {now : Instant}
      (h : content ∈ (Call.met ⟨1, .songs now 1 .byTitle none⟩ ofTwoUsers).toList.map (1, ·)) :
      content = (1, titledRules) := by
    obtain ⟨groups, hgroups, rfl⟩ := List.mem_map.mp h
    rw [eq_titledRules_of_met (Option.mem_toList.mp hgroups)]
  simp only [inTurn, contents, Call.plainAfter, Call.change?, List.mem_append, List.not_mem_nil,
    or_false] at h
  rcases h with h | h | h | h
  exacts [.inl (hstored h), .inl (hstored h), .inr (List.mem_singleton.mp h), .inl (hstored h)]

theorem distinguished_inTurn :
    Distinguished fun user groups => (user, groups) ∈ contents inTurn ofTwoUsers := by
  have hkeys : Content.key (1 : Int64).toInt titledRules ≠
      Content.key (2 : Int64).toInt artistRules := by decide +kernel
  constructor
  case fits =>
    intro user groups h
    rcases mem_contents_inTurn h with h | h <;> cases h
    · exact Content.allFit_titled none rfl
    · exact Content.allFit_single none (by decide) (by decide) (by decide)
  case digests =>
    intro user groups other others h hother hkey
    rcases mem_contents_inTurn h with h | h <;> rcases mem_contents_inTurn hother with h' | h' <;>
      cases h <;> cases h'
    · rfl
    · exact absurd hkey hkeys
    · exact absurd hkey.symm hkeys
    · rfl

/-- With room for one expression, the second call finds the one of the first, and the fourth has
to compile it again. -/
theorem cache_transparent_twice :
    answers inTurn ofTwoUsers = plainAnswers inTurn ofTwoUsers ∧
      (final (inTurn.take 2) ofTwoUsers).cache.compiled = 1 ∧
      (final inTurn ofTwoUsers).cache.compiled = 3 := by
  have hcache : ofTwoUsers.cache = .empty 1 := rfl
  refine ⟨(cache_transparent reachable_ofTwoUsers hcache ?_ distinguished_inTurn).1,
    by decide +kernel, by decide +kernel⟩
  intro call hcall change hchange
  simp only [inTurn, List.mem_cons, List.not_mem_nil, or_false] at hcall
  rcases hcall with rfl | rfl | rfl | rfl <;> cases hchange

end Run

end Setlist
