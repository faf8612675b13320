import Setlist.Proofs.Playlists.Shelf

/-! # Moves on the shelf

A call makes one move on the shelf at most: a playlist is made, changed or deleted. Every move
leaves a sound shelf sound, and ids are given out once.
-/

namespace Setlist

namespace Exchange

def made : Exchange → Option Int
  | (.create _ _, .playlist (.ok playlist)) => some playlist.id
  | _ => none

def dropped : Exchange → Option Int
  | (.delete id _, .deleted (.ok _)) => some id
  | _ => none

def named (id : Int) : Exchange → Option String
  | (.create _ new, .playlist (.ok playlist)) =>
    if playlist.id = id then some (Text.trim new.name) else none
  | (.rename _ other _ name, .playlist (.ok _)) =>
    if other = id then some (Text.trim name) else none
  | _ => none

def ruled (id : Int) : Exchange → Option (List GroupRecord)
  | (.create _ new, .playlist (.ok playlist)) => if playlist.id = id then some new.rules else none
  | (.updateRules _ other _ rules, .playlist (.ok _)) => if other = id then some rules else none
  | _ => none

def kind (id : Int) : Exchange → Option (Int × Bool)
  | (.create _ new, .playlist (.ok playlist)) =>
    if playlist.id = id then some (new.ownerId, new.isSmart) else none
  | _ => none

structure Idle (exchange : Exchange) : Prop where
  made : exchange.made = none
  dropped : exchange.dropped = none
  named : ∀ id, exchange.named id = none
  ruled : ∀ id, exchange.ruled id = none
  kind : ∀ id, exchange.kind id = none

theorem Idle.of_found (call : PlaylistCall) (result : Except CatalogueError (Option Playlist)) :
    Idle (call, .found result) := by
  constructor <;> intros <;> cases call <;> rfl

theorem Idle.of_listed (call : PlaylistCall) (result : Except CatalogueError (List Playlist)) :
    Idle (call, .listed result) := by
  constructor <;> intros <;> cases call <;> rfl

theorem Idle.of_refusal (call : PlaylistCall) {answer : PlaylistAnswer} (h : answer.IsRefusal) :
    Idle (call, answer) := by
  cases answer with
  | playlist result =>
    cases result with
    | error e => constructor <;> intros <;> cases call <;> rfl
    | ok playlist => cases h
  | deleted result =>
    cases result with
    | error e => constructor <;> intros <;> cases call <;> rfl
    | ok _ => cases h
  | found result => exact .of_found call result
  | listed result => exact .of_listed call result

end Exchange

namespace Shelf

variable {shelf after : Shelf} {exchange : Exchange} {id : Int}

/-- What an exchange writes: nothing, or one playlist that is made, changed or deleted. -/
inductive Move (shelf : Shelf) : Exchange → Shelf → Prop where

  | idle {exchange : Exchange} : exchange.Idle → Move shelf exchange shelf

  | add (now : Instant) {new : NewPlaylist} (time : String) : Text.trim new.name ≠ "" →
      Playlists.checkNew new = .ok () →
      Move shelf (.create now new, .playlist (.ok (shelf.fresh new time)))
        (shelf.add (shelf.fresh new time))

  | rule (now : Instant) {id user : Int} {rules : List GroupRecord} {playlist : Playlist}
      (time : String) : shelf.owned id user = .ok playlist → playlist.isSmart = true →
      (∃ e, GroupRecord.compileStrict user rules = .ok e) →
      Move shelf (.updateRules now id user rules, .playlist (.ok (playlist.withRules rules time)))
        (shelf.put (playlist.withRules rules time))

  | rename (now : Instant) {id user : Int} {name : String} {playlist : Playlist} (time : String) :
      shelf.owned id user = .ok playlist → Text.trim name ≠ "" →
      Move shelf (.rename now id user name,
          .playlist (.ok (playlist.withName (Text.trim name) time)))
        (shelf.put (playlist.withName (Text.trim name) time))

  | drop {id user : Int} {playlist : Playlist} : shelf.owned id user = .ok playlist →
      Move shelf (.delete id user, .deleted (.ok ())) (shelf.remove id)

theorem step_moves (users : Int → Bool) (call : PlaylistCall) (shelf : Shelf) :
    Move shelf (call, (shelf.step users call).1) (shelf.step users call).2 := by
  cases call with
  | create now new =>
    simp only [step]
    cases hresult : shelf.created users now new with
    | error e => exact .idle (.of_refusal _ rfl)
    | ok playlist =>
      obtain ⟨hname, hnew, time, rfl⟩ := created_eq_ok hresult
      exact .add now time hname hnew
  | updateRules now id user rules =>
    simp only [step]
    cases hresult : shelf.withRules now id user rules with
    | error e => exact .idle (.of_refusal _ rfl)
    | ok playlist =>
      obtain ⟨old, time, howned, hsmart, hrules, rfl⟩ := withRules_eq_ok hresult
      exact .rule now time howned hsmart hrules
  | rename now id user name =>
    simp only [step]
    cases hresult : shelf.renamed now id user name with
    | error e => exact .idle (.of_refusal _ rfl)
    | ok playlist =>
      obtain ⟨old, time, howned, hname, rfl⟩ := renamed_eq_ok hresult
      exact .rename now time howned hname
  | delete id user =>
    simp only [step]
    cases howned : shelf.owned id user with
    | error e => exact .idle (.of_refusal _ rfl)
    | ok playlist => exact .drop howned
  | get id user => exact .idle (.of_found _ _)
  | ofUser user => exact .idle (.of_listed _ _)

theorem Sound.put {playlist : Playlist} (h : shelf.Sound) (hsound : playlist.IsSound)
    (hgiven : 1 ≤ playlist.id ∧ playlist.id ≤ shelf.used) : (shelf.put playlist).Sound := by
  constructor <;> intro id found hfound <;> rw [playlist?_put] at hfound <;> split at hfound
  case placed.isTrue hid => rw [hid, ← Option.some.inj hfound]
  case placed.isFalse => exact h.placed hfound
  case given.isTrue hid => rw [hid]; exact hgiven
  case given.isFalse => exact h.given hfound
  case sound.isTrue => exact Option.some.inj hfound ▸ hsound
  case sound.isFalse => exact h.sound hfound

theorem Sound.mono {used : Nat} (h : shelf.Sound) (hused : shelf.used ≤ used) :
    ({ shelf with used := used } : Shelf).Sound := by
  refine ⟨h.placed, fun hfound => ?_, h.sound⟩
  obtain ⟨hleast, hmost⟩ := h.given hfound
  exact ⟨hleast, hmost.trans (Int.ofNat_le.mpr hused)⟩

theorem Sound.put_owned {user : Int} {old changed : Playlist} (h : shelf.Sound)
    (howned : shelf.owned id user = .ok old) (hchanged : changed.id = old.id)
    (hsound : changed.IsSound) : (shelf.put changed).Sound := by
  have hfound := (owned_eq_ok.mp howned).1
  refine h.put hsound ?_
  rw [hchanged, h.placed hfound]
  exact h.given hfound

theorem Move.sound (hmove : Move shelf exchange after) (h : shelf.Sound) : after.Sound := by
  cases hmove with
  | idle => exact h
  | @add _ new time hname hnew =>
    obtain ⟨hsmart, hplain⟩ := compileStrict_of_checkNew hnew
    have hwider : ({ shelf with used := shelf.used + 1 } : Shelf).Sound :=
      h.mono (Nat.le_succ shelf.used)
    refine hwider.put ⟨hname, Text.trim_trim new.name, hsmart, hplain⟩ ?_
    dsimp only [fresh]
    omega
  | rule now time howned hsmart hrules =>
    obtain ⟨hfound, rfl⟩ := owned_eq_ok.mp howned
    obtain ⟨hnamed, htrimmed, -, -⟩ := h.sound hfound
    refine h.put_owned howned rfl ⟨hnamed, htrimmed, fun _ => hrules, fun hplain => ?_⟩
    cases hsmart.symm.trans hplain
  | @rename _ _ _ name _ time howned hname =>
    obtain ⟨-, -, hsmart, hplain⟩ := h.sound (owned_eq_ok.mp howned).1
    exact h.put_owned howned rfl ⟨hname, Text.trim_trim name, hsmart, hplain⟩
  | drop howned =>
    constructor <;> intro id found hfound <;> rw [playlist?_remove] at hfound <;> split at hfound
    case placed.isFalse => exact h.placed hfound
    case given.isFalse => exact h.given hfound
    case sound.isFalse => exact h.sound hfound
    all_goals cases hfound

theorem playlist?_put_owned {user : Int} {old : Playlist} (h : shelf.Sound)
    (howned : shelf.owned id user = .ok old) (changed : Playlist) (hchanged : changed.id = old.id)
    (other : Int) : other = id ∧ (shelf.put changed).playlist? other = some changed ∧
        shelf.playlist? other = some old ∨
      other ≠ id ∧ (shelf.put changed).playlist? other = shelf.playlist? other := by
  obtain ⟨hfound, -⟩ := owned_eq_ok.mp howned
  rw [playlist?_put, hchanged, h.placed hfound]
  by_cases hother : other = id
  · exact .inl ⟨hother, if_pos hother, hother ▸ hfound⟩
  · exact .inr ⟨hother, if_neg hother⟩

theorem isSome_put_owned {user : Int} {old : Playlist} (h : shelf.Sound)
    (howned : shelf.owned id user = .ok old) (changed : Playlist) (hchanged : changed.id = old.id)
    (other : Int) :
    ((shelf.put changed).playlist? other).isSome = (shelf.playlist? other).isSome := by
  rcases playlist?_put_owned h howned changed hchanged other with
    ⟨-, hput, hfound⟩ | ⟨-, hput⟩ <;> rw [hput]
  rw [hfound]
  rfl

/-- A place is filled by what is made under its id, and emptied by what is deleted under it. -/
theorem Move.isSome_iff (hmove : Move shelf exchange after) (h : shelf.Sound) (id : Int) :
    (after.playlist? id).isSome ↔
      ((shelf.playlist? id).isSome ∨ id ∈ exchange.made) ∧ id ∉ exchange.dropped := by
  cases hmove with
  | idle hidle => simp [hidle.made, hidle.dropped]
  | @add _ new time =>
    by_cases hid : id = (shelf.fresh new time).id
    · simp [Exchange.made, Exchange.dropped, hid]
    · simp [Exchange.made, Exchange.dropped, hid, Ne.symm hid]
  | @rule _ _ _ rules old time howned =>
    rw [isSome_put_owned h howned (old.withRules rules time) rfl]
    simp [Exchange.made, Exchange.dropped]
  | @rename _ _ _ name old time howned =>
    rw [isSome_put_owned h howned (old.withName (Text.trim name) time) rfl]
    simp [Exchange.made, Exchange.dropped]
  | @drop dropped _ _ howned =>
    by_cases hid : id = dropped
    · simp [Exchange.made, Exchange.dropped, hid]
    · simp [Exchange.made, Exchange.dropped, hid, Ne.symm hid]

theorem Move.used_eq (hmove : Move shelf exchange after) :
    (∀ id ∈ exchange.made, id = shelf.used + 1 ∧ after.used = shelf.used + 1) ∧
      (exchange.made = none → after.used = shelf.used) := by
  cases hmove with
  | idle hidle => simp [hidle.made]
  | add => exact ⟨fun id hid => ⟨(Option.some.inj hid).symm, rfl⟩, nofun⟩
  | rule | rename | drop => exact ⟨nofun, fun _ => rfl⟩

theorem Move.isSome_of_dropped (hmove : Move shelf exchange after)
    (hdropped : id ∈ exchange.dropped) : (shelf.playlist? id).isSome := by
  cases hmove with
  | idle hidle =>
    rw [hidle.dropped] at hdropped
    cases hdropped
  | drop howned =>
    obtain rfl := Option.some.inj hdropped
    rw [(owned_eq_ok.mp howned).1]
    rfl
  | _ => cases hdropped

end Shelf

end Setlist
