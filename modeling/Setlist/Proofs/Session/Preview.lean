import Setlist.Proofs.Catalogue.Evaluation
import Setlist.Proofs.Session.Isolation

/-! # Previewing and saving rules

Rules are previewed as they are given. Saved ones are written as text, and read again before
they are compiled, with the help of a cache. Both ways meet the same faults, or come to the
same songs.
-/

namespace Setlist

open Catalogue

variable {rules : List GroupRecord} {now later : Instant} {order : SortOrder}
variable {request : Option PageRequest}

namespace Shelf

variable {shelf : Shelf} {users : Int → Bool}

theorem created_smart {new : NewPlaylist} (hname : Text.trim new.name ≠ "")
    (hsmart : new.isSmart = true) (huser : users new.ownerId = true) :
    shelf.created users now new =
      ((GroupRecord.compileStrict new.ownerId new.rules).mapError .rules).bind fun _ =>
        (stamped now .created).map (shelf.fresh new) := by
  have hchecked : Playlists.checkName new.name = .ok (Text.trim new.name) := by
    simp [Playlists.checkName, hname]
  simp only [created, hchecked, Playlists.checkNew, hsmart, if_true, Playlists.checkRules, huser]
  cases GroupRecord.compileStrict new.ownerId new.rules with
  | error faults => rfl
  | ok e => cases stamped now .created <;> rfl

theorem withRules_smart {id user : Int} {old : Playlist} (howned : shelf.owned id user = .ok old)
    (hsmart : old.isSmart = true) : shelf.withRules now id user rules =
      ((GroupRecord.compileStrict user rules).mapError .rules).bind fun _ =>
        (stamped now .updated).map (old.withRules rules) := by
  have hchecked : Playlists.checkSmart old = .ok () := by simp [Playlists.checkSmart, hsmart]
  simp only [withRules, howned, Except.ok_bind, hchecked, Playlists.checkRules]
  cases GroupRecord.compileStrict user rules with
  | error faults => rfl
  | ok e => cases stamped now .updated <;> rfl

end Shelf

namespace Session

variable {met : Int64 → List GroupRecord → Prop} {s t : Session} {playlist : Playlist}

/-- The playlist is kept with the rules, for its owner to evaluate. -/
structure Keeps (c : Catalogue) (user : Int) (rules : List GroupRecord) (playlist : Playlist) :
    Prop where
  entry : c.shelf.playlist? playlist.id = some playlist
  ownerId : playlist.ownerId = user
  isSmart : playlist.isSmart = true
  rules : playlist.rules = rules

theorem Keeps.exists_row {c : Catalogue} {user : Int} (h : Keeps c user rules playlist) :
    ∃ row, (c.playlist? playlist.id).filter (·.ownerId == user) = some row ∧
      row.isSmart = true ∧ row.storedRules = rules := by
  obtain ⟨row, hrow, hstored⟩ := Option.map_eq_some_iff.mp h.entry
  have howner : row.ownerId = user := by rw [← h.ownerId, ← hstored, PlaylistRow.stored]
  refine ⟨row, ?_, ?_, ?_⟩
  · rw [hrow]
    simp [howner]
  · rw [← h.isSmart, ← hstored, PlaylistRow.stored]
  · rw [← h.rules, ← hstored, PlaylistRow.stored]

/-- The songs of a kept playlist are those that its rules match, whatever is in the cache. -/
theorem songs_of_keeps (ht : t.Reached met) {user : Int64}
    (hkeeps : Keeps t.catalogue user.toInt rules playlist) (hown : HasOwnDigest met user rules) :
    (songs now user.toInt playlist.id order request t).1 =
      ((GroupRecord.compileStrict user.toInt rules).mapError .rules).bind fun e =>
        t.catalogue.evaluate t.plan e order (t.page request) now := by
  obtain ⟨hc, hsound⟩ := ht.sound
  obtain ⟨row, hrow, hsmart, rfl⟩ := hkeeps.exists_row
  obtain ⟨cache, hrun⟩ := Call.compiled_transparent hc.invariant.readable hsound user playlist.id
    fun other hother _ => by rwa [← Option.some.inj (hrow.symm.trans hother)]
  rw [songs_run now order request hrun, Call.compileStored_eq hrow hsmart]
  cases GroupRecord.compileStrict user.toInt row.storedRules <;> rfl

theorem preview_eq_faults (hc : s.catalogue.Invariant) {user : Int} {faults : List RuleFault} :
    (preview now user rules order request s).1 = .error (.rules faults) ↔
      GroupRecord.compileStrict user rules = .error faults := by
  rw [preview_run]
  cases hcompile : GroupRecord.compileStrict user rules with
  | error found => simp [Except.mapError, Except.bind]
  | ok e =>
    have he : e.CoveredBy e.joins := GroupRecord.coveredBy_of_compileStrict hcompile
    simp only [Except.mapError, Except.bind, reduceCtorEq, iff_false]
    rcases evaluate_cases hc he s.plan order (s.page request) now with
      ⟨songs, hsongs, -⟩ | ⟨fault, hfault, -⟩
    · rw [hsongs]
      simp
    · rw [hfault]
      simp

/-- Rules are saved in a new playlist, or in one that there is. -/
inductive Saving where
  | create (name : String)
  | update (id : Int)

namespace Saving

variable {saving : Saving} {user : Int}

def run (saving : Saving) (now : Instant) (user : Int) (rules : List GroupRecord) :
    Request Playlist :=
  match saving with
  | .create name => createPlaylist now user name rules
  | .update id => updateRules now user id rules

/-- The new playlist is given a name, or the old one is a smart one of the user. -/
inductive IsOpen (s : Session) (user : Int) : Saving → Prop where
  | create {name : String} : Text.trim name ≠ "" → IsOpen s user (.create name)
  | update {id : Int} {playlist : Playlist} :
      Playlists.get? s.catalogue id user = .ok (some playlist) → playlist.isSmart = true →
      IsOpen s user (.update id)

/-- Faults in the rules refuse them, and a time that cannot be kept does. Else they are kept. -/
inductive Outcome (s : Session) (user : Int) (rules : List GroupRecord) (later : Instant) :
    Except CatalogueError Playlist × Session → Prop where

  | faulty {faults : List RuleFault} {t : Session} :
      GroupRecord.compileStrict user rules = .error faults →
      Outcome s user rules later (.error (.rules faults), t)

  | undated {e : Expression} {fault : DatabaseFault} {t : Session} :
      GroupRecord.compileStrict user rules = .ok e → Timestamp.stamp? later = none →
      Outcome s user rules later (.error (.database fault), t)

  | kept {e : Expression} {playlist : Playlist} {t : Session} :
      GroupRecord.compileStrict user rules = .ok e → Keeps t.catalogue user rules playlist →
      AlikeElsewhere s.catalogue t.catalogue → Outcome s user rules later (.ok playlist, t)

theorem Outcome.of_agrees {ran : Except CatalogueError Playlist × Catalogue}
    {place : Playlist → Shelf} {dating : Dating} {keep : String → Playlist}
    (h : Agrees s.catalogue place ran
      (((GroupRecord.compileStrict user rules).mapError .rules).bind fun _ =>
        (Shelf.stamped later dating).map keep))
    (hkeep : ∀ time, (keep time).ownerId = user ∧ (keep time).isSmart = true ∧
      (keep time).rules = rules ∧ (place (keep time)).playlist? (keep time).id = some (keep time))
    {t : Session} (ht : t.catalogue = ran.2) : Outcome s user rules later (ran.1, t) := by
  cases hcompile : GroupRecord.compileStrict user rules with
  | error faults =>
    rw [hcompile] at h
    cases h
    exact .faulty hcompile
  | ok e =>
    rw [hcompile] at h
    cases hstamp : Timestamp.stamp? later with
    | none =>
      simp only [Shelf.stamped, hstamp] at h
      cases h
      exact .undated hcompile hstamp
    | some time =>
      simp only [Shelf.stamped, hstamp] at h
      cases h with
      | accepted hplace helse =>
        obtain ⟨howner, hsmart, hrules, hentry⟩ := hkeep time
        dsimp only at ht
        rw [← ht] at hplace helse
        exact .kept hcompile ⟨hplace ▸ hentry, howner, hsmart, hrules⟩ helse

theorem IsOpen.outcome (h : saving.IsOpen s user) (hc : s.catalogue.Invariant)
    (huser : (s.catalogue.user? user).isSome) (htyped : ∀ group ∈ rules, group.Typed)
    (later : Instant) : Outcome s user rules later (saving.run later user rules s) := by
  cases h with
  | @create name hname =>
    have hcreated : s.catalogue.shelf.created s.catalogue.hasUser later
        ⟨user, name, true, rules⟩ = _ := Shelf.created_smart hname rfl huser
    have hagrees : Agrees s.catalogue _ (Playlists.create later ⟨user, name, true, rules⟩
        s.catalogue) _ := create_agrees hc later htyped
    rw [hcreated] at hagrees
    rw [run, createPlaylist, act_run]
    refine .of_agrees hagrees (fun time => ⟨rfl, rfl, rfl, ?_⟩) rfl
    rw [Shelf.playlist?_add, if_pos rfl]
  | @update id old hget hsmart =>
    rw [get?_eq hc.readable] at hget
    obtain ⟨hentry, howner⟩ := Option.filter_eq_some_iff.mp (Except.ok.inj hget)
    have howned := Shelf.owned_eq_ok.mpr ⟨hentry, beq_iff_eq.mp howner⟩
    have hagrees := updateRules_agrees hc later id user htyped
    rw [Shelf.withRules_smart howned hsmart] at hagrees
    rw [run, updateRules, act_invalidate_run]
    refine .of_agrees hagrees (fun time => ⟨beq_iff_eq.mp howner, hsmart, rfl, ?_⟩) rfl
    rw [Shelf.playlist?_put, if_pos rfl]

theorem Outcome.eq_faults {ran : Except CatalogueError Playlist × Session}
    (h : Outcome s user rules later ran) {faults : List RuleFault} :
    ran.1 = .error (.rules faults) ↔ GroupRecord.compileStrict user rules = .error faults := by
  cases h with
  | faulty hcompile => simp [hcompile]
  | undated hcompile | kept hcompile => simp [hcompile]

theorem Outcome.exists_ok {ran : Except CatalogueError Playlist × Session}
    (h : Outcome s user rules later ran) (hlater : (Timestamp.stamp? later).isSome)
    (hcompile : ∀ faults, GroupRecord.compileStrict user rules ≠ .error faults) :
    ∃ playlist saved, ran = (.ok playlist, saved) := by
  cases h with
  | faulty hfaults => exact absurd hfaults (hcompile _)
  | undated _ hundated =>
    rw [hundated] at hlater
    cases hlater
  | kept => exact ⟨_, _, rfl⟩

def operation (saving : Saving) (later : Instant) (rules : List GroupRecord) : Operation :=
  match saving with
  | .create name => .create later name rules
  | .update id => .updateRules later id rules

theorem run_snd (saving : Saving) (later : Instant) (user : Int64) (s : Session) :
    (saving.run later user.toInt rules s).2 =
      (Deed.call (saving.operation later rules)).run user s := by
  cases saving with
  | create name => simp only [run, operation, Deed.run, Call.run, createPlaylist, act_run]
  | update id => simp only [run, operation, Deed.run, Call.run, updateRules, act_invalidate_run]

theorem limits_run (saving : Saving) (later : Instant) (user : Int) (s : Session) :
    (saving.run later user rules s).2.plan = s.plan ∧
      (saving.run later user rules s).2.defaultPerPage = s.defaultPerPage ∧
      (saving.run later user rules s).2.maxPerPage = s.maxPerPage := by
  cases saving with
  | create name => simp only [run, createPlaylist, act_run, and_self]
  | update id => simp only [run, updateRules, act_invalidate_run, and_self]

theorem reached_run (hs : s.Reached met) (htyped : ∀ group ∈ rules, group.Typed) (saving : Saving)
    (later : Instant) (user : Int64) : (saving.run later user.toInt rules s).2.Reached met := by
  rw [run_snd]
  apply Reached.deed user _ _ _ hs
  · intro change hchange
    cases saving <;> cases hchange <;> exact htyped
  · intro groups hgroups
    cases saving <;> cases hgroups

end Saving

/-- Rules are refused as faulty by a preview if and only if saving them is, with the same faults.
Else they are saved, if the time can be kept; and the songs of the playlist are those that the
preview showed, or it fails as the preview did, whatever has been in the cache. -/
theorem preview_agrees (hs : s.Reached met) {user : Int64}
    (huser : (s.catalogue.user? user.toInt).isSome) (htyped : ∀ group ∈ rules, group.Typed)
    {saving : Saving} (hopen : saving.IsOpen s user.toInt) (now later : Instant)
    (order : SortOrder) (request : Option PageRequest) :
    (∀ faults, (preview now user.toInt rules order request s).1 = .error (.rules faults) ↔
      (saving.run later user.toInt rules s).1 = .error (.rules faults)) ∧
    ((∀ faults, (preview now user.toInt rules order request s).1 ≠ .error (.rules faults)) →
      (Timestamp.stamp? later).isSome →
        ∃ playlist saved, saving.run later user.toInt rules s = (.ok playlist, saved)) ∧
    ∀ playlist saved, saving.run later user.toInt rules s = (.ok playlist, saved) →
      ∀ {met'} t, t.Reached met' → HasOwnDigest met' user rules →
        t.catalogue = saved.catalogue → t.plan = s.plan →
          t.defaultPerPage = s.defaultPerPage → t.maxPerPage = s.maxPerPage →
            (songs now user.toInt playlist.id order request t).1 =
              (preview now user.toInt rules order request s).1 := by
  have hc := hs.sound.1.invariant
  have houtcome := hopen.outcome hc huser htyped later
  refine ⟨fun faults => ?_, fun hpreview hlater => ?_, ?_⟩
  · rw [preview_eq_faults hc, houtcome.eq_faults]
  · exact houtcome.exists_ok hlater fun faults hfaults =>
      hpreview faults ((preview_eq_faults hc).mpr hfaults)
  · intro playlist saved hrun met' t ht hown hcatalogue hplan hdefault hmost
    rw [hrun] at houtcome
    cases houtcome with
    | kept hcompile hkeeps helse =>
      -- the saved rules are read back as they were given, and no song has changed meanwhile
      rw [← hcatalogue] at hkeeps helse
      have hpage : t.page request = s.page request := by rw [page, page, hdefault, hmost]
      rw [songs_of_keeps ht hkeeps hown, preview_run, hplan, hpage]
      refine bind_congr_of_ok fun e he => ?_
      exact (helse.sameSongs user.toInt).evaluate_eq ht.sound.1.invariant hc (user_of_tried he)
        _ order _ now

/-- The rules of one playlist are previewed, and saved in a second one. -/
theorem preview_agrees_ofTwoUsers : ∃ playlist saved,
    Saving.run (.create "copy") ⟨0, 0⟩ (1 : Int64).toInt titledRules ofTwoUsers =
        (.ok playlist, saved) ∧
      (songs ⟨0, 0⟩ (1 : Int64).toInt playlist.id .byTitle none saved).1 =
        (preview ⟨0, 0⟩ (1 : Int64).toInt titledRules .byTitle none ofTwoUsers).1 := by
  have hreached : ofTwoUsers.Reached fun _ _ => False := reached_ofTwoUsers
  have huser : (ofTwoUsers.catalogue.user? (1 : Int64).toInt).isSome = true := by decide +kernel
  have hopen : (Saving.create "copy").IsOpen ofTwoUsers (1 : Int64).toInt := .create (by decide)
  have hcompile : GroupRecord.compileStrict (1 : Int64).toInt titledRules = .ok _ :=
    GroupRecord.compileStrict_eq_ok.mpr ⟨accepted_titledRules, rfl⟩
  obtain ⟨-, hok, hsongs⟩ := preview_agrees hreached huser typed_titledRules hopen ⟨0, 0⟩ ⟨0, 0⟩
    .byTitle none
  obtain ⟨playlist, saved, hrun⟩ := hok (fun faults hfaults => by
    rw [preview_eq_faults hreached.sound.1.invariant, hcompile] at hfaults
    cases hfaults) (by decide +kernel)
  have hsaved := Saving.reached_run hreached typed_titledRules (.create "copy") ⟨0, 0⟩ 1
  obtain ⟨hplan, hdefault, hmost⟩ := Saving.limits_run (.create "copy") ⟨0, 0⟩ (1 : Int64).toInt ofTwoUsers
  rw [hrun] at hsaved hplan hdefault hmost
  have hown : HasOwnDigest (fun _ _ => False) 1 titledRules :=
    ⟨Content.allFit_titled none rfl, fun hother _ => hother.elim⟩
  exact ⟨playlist, saved, hrun,
    hsongs playlist saved hrun saved hsaved hown rfl hplan hdefault hmost⟩

end Session

end Setlist
