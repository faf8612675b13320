import Setlist.Proofs.Catalogue.Isolation
import Setlist.Proofs.Session.Transparency

/-! # Users do not see one another

The users of a session share its songs and its cache. Still, the answers that a user gets
follow from the shared rows and the user's own ones, and nothing that others do changes them.
-/

namespace Setlist

/-- What a user can read. -/
inductive Question where
  | playlists
  | playlist (id : Int)
  | songs (now : Instant) (id : Int) (order : SortOrder) (request : Option PageRequest)
  | preview (now : Instant) (rules : List GroupRecord) (order : SortOrder)
      (request : Option PageRequest)
  | song (id : String)
  | recentlyPlayed (limit : Option Nat)
  | favorites

inductive Reply where
  | playlists (result : Except CatalogueError (List Playlist))
  | playlist (result : Except CatalogueError (Option Playlist))
  | page (result : Except CatalogueError SongPage)
  | song (result : Except CatalogueError (Option Song))
  | songs (result : Except CatalogueError (List Song))

/-- What a user can do, with playlists and the cache or else. An expression to evaluate may be
one of another user. -/
inductive Deed where
  | call (operation : Operation)
  | recordPlay (now : Instant) (song : String)
  | setLiked (now : Instant) (song : String) (liked : Bool)
  | evaluate (now : Instant) (expression : Expression) (order : SortOrder) (request : PageRequest)
  | ask (question : Question)

namespace Question

def ask (user : Int64) (question : Question) (s : Session) : Reply × Session :=
  match question with
  | .playlists =>
    let (result, s) := Session.playlists user.toInt s
    (.playlists result, s)
  | .playlist id =>
    let (result, s) := Session.playlist user.toInt id s
    (.playlist result, s)
  | .songs now id order request =>
    let (result, s) := Session.songs now user.toInt id order request s
    (.page result, s)
  | .preview now rules order request =>
    let (result, s) := Session.preview now user.toInt rules order request s
    (.page result, s)
  | .song id =>
    let (result, s) := Session.song user.toInt id s
    (.song result, s)
  | .recentlyPlayed limit =>
    let (result, s) := Session.recentlyPlayed user.toInt limit s
    (.songs result, s)
  | .favorites =>
    let (result, s) := Session.favorites user.toInt s
    (.songs result, s)

/-- The reply if nothing were kept compiled. -/
def plainReply (user : Int64) (question : Question) (s : Session) : Reply :=
  let c := s.catalogue
  match question with
  | .playlists => .playlists (Playlists.ofUser c user.toInt)
  | .playlist id => .playlist (Playlists.get? c id user.toInt)
  | .songs now id order request =>
    .page <| (Session.compileStored c user.toInt id).bind fun e =>
      c.evaluate s.plan e order (s.page request) now
  | .preview now rules order request =>
    .page <| ((GroupRecord.compileStrict user.toInt rules).mapError .rules).bind fun e =>
      c.evaluate s.plan e order (s.page request) now
  | .song id => .song (Songs.get? c user.toInt id)
  | .recentlyPlayed limit =>
    .songs (Songs.many c user.toInt (Interactions.recentlyPlayed c user.toInt limit))
  | .favorites => .songs (Interactions.favorites c user.toInt)

def met (user : Int64) (question : Question) (s : Session) : Option (List GroupRecord) :=
  match question with
  | .songs now id order request => Call.met ⟨user, .songs now id order request⟩ s
  | _ => none

end Question

namespace Deed

def run (user : Int64) (deed : Deed) (s : Session) : Session :=
  match deed with
  | .call operation => (Call.run ⟨user, operation⟩ s).2
  | .recordPlay now song => (Session.recordPlay now user.toInt song s).2
  | .setLiked now song liked => (Session.setLiked now user.toInt song liked s).2
  | .evaluate now expression order request => (Session.evaluate now expression order request s).2
  | .ask question => (question.ask user s).2

def change? (user : Int64) : Deed → Option Change
  | .call operation => Call.change? ⟨user, operation⟩
  | .recordPlay now song => some (.recordPlay now user.toInt song)
  | .setLiked now song liked => some (.setLiked now user.toInt song liked)
  | _ => none

def Typed (user : Int64) (deed : Deed) : Prop := ∀ change ∈ deed.change? user, change.Typed

def met (user : Int64) (deed : Deed) (s : Session) : Option (List GroupRecord) :=
  match deed with
  | .call operation => Call.met ⟨user, operation⟩ s
  | .ask question => question.met user s
  | _ => none

end Deed

namespace Session

variable {met : Int64 → List GroupRecord → Prop} {s t : Session} {user : Int64}

/-- The session has come about by changes of the catalogue and by deeds of users, and the
contents that were met on the way are among `met`. -/
inductive Reached (met : Int64 → List GroupRecord → Prop) : Session → Prop where

  | start {c : Catalogue} (plan : Plan) (capacity defaultPerPage maxPerPage : Nat) :
      c.Reachable → Reached met ⟨plan, c, .empty capacity, defaultPerPage, maxPerPage⟩

  | change {s : Session} (change : Change) : change.Typed → Reached met s →
      Reached met { s with catalogue := change.apply s.catalogue }

  | deed {s : Session} (user : Int64) (deed : Deed) : deed.Typed user →
      (∀ groups ∈ deed.met user s, met user groups) → Reached met s →
      Reached met (deed.run user s)

/-- Users other than one have brought a session to where it is. -/
inductive ByOthers (met : Int64 → List GroupRecord → Prop) (user : Int64) (s : Session) :
    Session → Prop where

  | refl : ByOthers met user s s

  | deed {t : Session} (other : Int64) (deed : Deed) : other ≠ user → deed.Typed other →
      (∀ groups ∈ deed.met other t, met other groups) → ByOthers met user s t →
      ByOthers met user s (deed.run other t)

/-- The sessions differ at most in their caches and in rows that belong to other users. -/
structure AlikeFor (user : Int64) (s t : Session) : Prop where
  plan : s.plan = t.plan
  catalogue : s.catalogue.AlikeFor user.toInt t.catalogue
  defaultPerPage : s.defaultPerPage = t.defaultPerPage
  maxPerPage : s.maxPerPage = t.maxPerPage

theorem AlikeFor.trans {r : Session} (h : s.AlikeFor user t) (h' : t.AlikeFor user r) :
    s.AlikeFor user r where
  plan := h.plan.trans h'.plan
  catalogue := h.catalogue.trans h'.catalogue
  defaultPerPage := h.defaultPerPage.trans h'.defaultPerPage
  maxPerPage := h.maxPerPage.trans h'.maxPerPage

theorem preview_run (now : Instant) (user : Int) (rules : List GroupRecord) (order : SortOrder)
    (request : Option PageRequest) (s : Session) : preview now user rules order request s =
      (((GroupRecord.compileStrict user rules).mapError .rules).bind fun e =>
        s.catalogue.evaluate s.plan e order (s.page request) now, s) := by
  rw [preview]
  cases GroupRecord.compileStrict user rules with
  | error faults => rfl
  | ok e => exact ask_run (fun c => c.evaluate s.plan e order (s.page request) now) s

theorem evaluate_run (now : Instant) (e : Expression) (order : SortOrder) (request : PageRequest)
    (s : Session) : evaluate now e order request s =
      (s.catalogue.evaluate s.plan e order (request.clamped s.maxPerPage) now, s) :=
  ask_run (fun c => c.evaluate s.plan e order (request.clamped s.maxPerPage) now) s

end Session

open Session

variable {met met' : Int64 → List GroupRecord → Prop} {s t : Session} {user : Int64}

namespace Question

/-- With a sound cache, a question gets the plain reply, if nothing else was met with the digest
it takes. -/
theorem ask_reply {question : Question} (hc : s.catalogue.Readable) (hsound : s.cache.Sound met)
    (hown : ∀ groups ∈ question.met user s, HasOwnDigest met user groups) :
    (question.ask user s).1 = question.plainReply user s := by
  cases question with
  | songs now id order request =>
    obtain ⟨after, hrun⟩ := Call.compiled_transparent hc hsound user id
      fun row hrow hsmart => hown _ (Call.met_compiled hrow hsmart)
    simp only [ask, Session.songs_run now order request hrun, plainReply]
    rfl
  | preview now rules order request => simp only [ask, preview_run, plainReply]
  | _ =>
    simp only [ask, Session.playlists, Session.playlist, Session.song, Session.recentlyPlayed,
      Session.favorites, Session.ask_run, plainReply]

theorem ask_after {question : Question} (hc : s.catalogue.Readable) (hsound : s.cache.Sound met)
    (hthis : ∀ groups ∈ question.met user s, met user groups) :
    ∃ after : Cache, after.Sound met ∧ (question.ask user s).2 = { s with cache := after } := by
  cases question with
  | songs now id order request =>
    obtain ⟨after, hafter, hrun⟩ := Call.compiled_sound hc hsound user id
      fun row hrow hsmart => hthis _ (Call.met_compiled hrow hsmart)
    refine ⟨after, hafter, ?_⟩
    simp only [ask, Session.songs_run now order request Prod.mk.eta.symm, hrun]
  | preview now rules order request =>
    refine ⟨s.cache, hsound, ?_⟩
    simp only [ask, preview_run]
  | _ =>
    refine ⟨s.cache, hsound, ?_⟩
    simp only [ask, Session.playlists, Session.playlist, Session.song, Session.recentlyPlayed,
      Session.favorites, Session.ask_run]

end Question

namespace Deed

theorem run_after {deed : Deed} (hc : s.catalogue.Readable) (hsound : s.cache.Sound met)
    (hthis : ∀ groups ∈ deed.met user s, met user groups) :
    ∃ after : Cache, after.Sound met ∧ deed.run user s = { s with
      catalogue := ((deed.change? user).map (·.apply s.catalogue)).getD s.catalogue
      cache := after } := by
  cases deed with
  | call operation =>
    obtain ⟨after, hafter, hrun⟩ := Call.run_after s hc hsound hthis
    refine ⟨after, hafter, hrun.trans ?_⟩
    dsimp only [Call.plainAfter, change?]
    cases Call.change? ⟨user, operation⟩ <;> rfl
  | recordPlay now song => exact ⟨s.cache, hsound, rfl⟩
  | setLiked now song liked => exact ⟨s.cache, hsound, rfl⟩
  | evaluate now e order request =>
    exact ⟨s.cache, hsound, congrArg Prod.snd (evaluate_run now e order request s)⟩
  | ask question => exact question.ask_after hc hsound hthis

theorem owner_change {deed : Deed} {change : Change} (h : change ∈ deed.change? user) :
    change.owner = some user.toInt := by
  cases deed with
  | call operation => cases operation <;> cases h <;> rfl
  | _ => cases h <;> rfl

end Deed

namespace Session

theorem Reached.sound (h : s.Reached met) : s.catalogue.Reachable ∧ s.cache.Sound met := by
  induction h with
  | start _ capacity _ _ hc => exact ⟨hc, .empty capacity⟩
  | change change htyped _ ih => exact ⟨.change change htyped ih.1, ih.2⟩
  | @deed s user deed htyped hthis _ ih =>
    obtain ⟨after, hafter, hrun⟩ := deed.run_after ih.1.invariant.readable ih.2 hthis
    rw [hrun]
    refine ⟨?_, hafter⟩
    cases hchange : deed.change? user with
    | none => exact ih.1
    | some change => exact .change change (htyped change hchange) ih.1

theorem user_of_tried {user : Int} {rules : List GroupRecord} {e : Expression}
    (h : (GroupRecord.compileStrict user rules).mapError CatalogueError.rules = .ok e) :
    e.user = user := by
  cases hcompile : GroupRecord.compileStrict user rules with
  | error faults =>
    rw [hcompile] at h
    cases h
  | ok compiled =>
    rw [hcompile] at h
    obtain rfl := Except.ok.inj h
    exact GroupRecord.user_of_compileStrict hcompile

theorem user_of_compileStored {c : Catalogue} {user id : Int} {e : Expression}
    (h : compileStored c user id = .ok e) : e.user = user := by
  unfold compileStored at h
  split at h
  case h_1 => cases h
  case h_2 row hrow =>
    split at h
    case isTrue => cases h
    case isFalse =>
      split at h
      case h_1 e' hcompile =>
        obtain rfl := Except.ok.inj h
        exact GroupRecord.user_of_compileStrict hcompile
      case h_2 => cases h

theorem bind_congr_of_ok {ε α β : Type} {x : Except ε α} {f g : α → Except ε β}
    (h : ∀ a, x = .ok a → f a = g a) : x.bind f = x.bind g := by
  cases x with
  | error e => rfl
  | ok a => exact h a rfl

/-- What a user is told follows from the rows that the user can see. -/
theorem AlikeFor.plainReply_eq (h : s.AlikeFor user t) (hs : s.catalogue.Invariant)
    (ht : t.catalogue.Invariant) (question : Question) :
    question.plainReply user s = question.plainReply user t := by
  have hpage (request : Option PageRequest) : s.page request = t.page request := by
    rw [page, page, h.defaultPerPage, h.maxPerPage]
  cases question with
  | playlists => exact congrArg Reply.playlists (h.catalogue.ofUser_eq hs ht)
  | playlist id =>
    simp only [Question.plainReply, Catalogue.get?_of_readable hs.readable,
      Catalogue.get?_of_readable ht.readable, h.catalogue.owned_eq hs ht]
  | songs now id order request =>
    have hstored : compileStored s.catalogue user.toInt id =
        compileStored t.catalogue user.toInt id := by
      rw [compileStored, compileStored, h.catalogue.owned_eq hs ht]
    simp only [Question.plainReply, h.plan, hpage, hstored]
    refine congrArg Reply.page (bind_congr_of_ok fun e he => ?_)
    exact h.catalogue.sameSongs.evaluate_eq hs ht (user_of_compileStored he) _ order _ now
  | preview now rules order request =>
    simp only [Question.plainReply, h.plan, hpage]
    refine congrArg Reply.page (bind_congr_of_ok fun e he => ?_)
    exact h.catalogue.sameSongs.evaluate_eq hs ht (user_of_tried he) _ order _ now
  | song id =>
    simp only [Question.plainReply, Songs.get?, h.catalogue.sameSongs.many_eq hs ht]
  | recentlyPlayed limit =>
    simp only [Question.plainReply, h.catalogue.recentlyPlayed_eq hs ht,
      h.catalogue.sameSongs.many_eq hs ht]
  | favorites => exact congrArg Reply.songs (h.catalogue.favorites_eq hs ht)

theorem Reached.alikeFor_run (h : s.Reached met) {other : Int64} {deed : Deed}
    (htyped : deed.Typed other) (hthis : ∀ groups ∈ deed.met other s, met other groups)
    (hne : other ≠ user) : s.AlikeFor user (deed.run other s) := by
  obtain ⟨hc, hsound⟩ := h.sound
  obtain ⟨after, -, hrun⟩ := deed.run_after hc.invariant.readable hsound hthis
  rw [hrun]
  refine ⟨rfl, ?_, rfl, rfl⟩
  cases hchange : deed.change? other with
  | none => exact .refl _ _
  | some change =>
    have hne' : other.toInt ≠ user.toInt := fun heq => hne (Int64.toInt_inj.mp heq)
    exact Catalogue.alikeFor_apply (htyped change hchange) hc.invariant.distinct
      (Deed.owner_change hchange) hne'

theorem Reached.byOthers (hs : s.Reached met) (h : ByOthers met user s t) :
    t.Reached met ∧ s.AlikeFor user t := by
  induction h with
  | refl => exact ⟨hs, rfl, .refl _ _, rfl, rfl⟩
  | deed other deed hne htyped hthis _ ih =>
    obtain ⟨hreached, halike⟩ := ih
    exact ⟨.deed other deed htyped hthis hreached,
      halike.trans (hreached.alikeFor_run htyped hthis hne)⟩

theorem AlikeFor.met_eq (h : s.AlikeFor user t) (hs : s.catalogue.Invariant)
    (ht : t.catalogue.Invariant) (question : Question) :
    question.met user s = question.met user t := by
  cases question with
  | songs now id order request =>
    simp only [Question.met, Call.met, h.catalogue.owned_eq hs ht]
  | _ => rfl

/-- The replies that a user gets are the same whatever other users do meanwhile. They are the
same in any two sessions with the same limits that differ only in rows of other users, with
whatever in their caches. Only the songs of a stored playlist rest on a digest. -/
theorem replies_isolated (hs : s.Reached met) {question : Question}
    (hown : ∀ groups ∈ question.met user s, HasOwnDigest met user groups) :
    (∀ t, ByOthers met user s t → (question.ask user t).1 = (question.ask user s).1) ∧
    ∀ {met'} t, t.Reached met' → s.AlikeFor user t →
      (∀ groups ∈ question.met user t, HasOwnDigest met' user groups) →
        (question.ask user t).1 = (question.ask user s).1 := by
  obtain ⟨hc, hsound⟩ := hs.sound
  have htwo {met'} (t : Session) (ht : t.Reached met') (halike : s.AlikeFor user t)
      (hown' : ∀ groups ∈ question.met user t, HasOwnDigest met' user groups) :
      (question.ask user t).1 = (question.ask user s).1 := by
    obtain ⟨hd, hsound'⟩ := ht.sound
    rw [question.ask_reply hc.invariant.readable hsound hown,
      question.ask_reply hd.invariant.readable hsound' hown']
    exact (halike.plainReply_eq hc.invariant hd.invariant question).symm
  refine ⟨fun t hothers => ?_, htwo⟩
  obtain ⟨ht, halike⟩ := hs.byOthers hothers
  refine htwo t ht halike ?_
  rwa [← halike.met_eq hc.invariant ht.sound.1.invariant]

theorem reached_ofTwoUsers : ofTwoUsers.Reached met := by
  unfold ofTwoUsers
  exact .start .byRows 1 50 100 reachable_shared

/-- The second user plays the song, and the playlist still shows the first user the same page. -/
theorem replies_isolated_played : ∃ t, t = Deed.run 2 (.recordPlay ⟨0, 0⟩ "song") ofTwoUsers ∧
    t.catalogue.interactions.length = 1 ∧
      (Question.ask 1 (.songs ⟨0, 0⟩ 1 .byTitle none) t).1 =
        (Question.ask 1 (.songs ⟨0, 0⟩ 1 .byTitle none) ofTwoUsers).1 := by
  have hreached : ofTwoUsers.Reached fun _ _ => False := reached_ofTwoUsers
  have hothers : ByOthers (fun _ _ => False) 1 ofTwoUsers
      (Deed.run 2 (.recordPlay ⟨0, 0⟩ "song") ofTwoUsers) := by
    refine .deed 2 _ (by decide) (fun change hchange => ?_) (fun groups hgroups => ?_) .refl
    · cases hchange
      trivial
    · cases hgroups
  have hown : ∀ groups ∈ Question.met 1 (.songs ⟨0, 0⟩ 1 .byTitle none) ofTwoUsers,
      HasOwnDigest (fun _ _ => False) 1 groups := by
    intro groups hgroups
    rw [Question.met] at hgroups
    obtain rfl := eq_titledRules_of_met hgroups
    exact ⟨Content.allFit_titled none rfl, fun hother _ => hother.elim⟩
  exact ⟨_, rfl, by decide +kernel, (replies_isolated hreached hown).1 _ hothers⟩

end Session

end Setlist
