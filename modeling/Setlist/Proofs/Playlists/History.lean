import Setlist.Proofs.Playlists.Moves

/-! # The history of a shelf

What stands on a shelf after a run of calls can be told from the calls that were accepted: the
names and the rules that came last, and what was made and not deleted.
-/

namespace Setlist

namespace Exchange

def latest {α : Type} (given : Exchange → Option α) (trace : List Exchange) : Option α :=
  (trace.filterMap given).getLast?

theorem latest_cons {α : Type} (given : Exchange → Option α) (first : Exchange)
    (rest : List Exchange) :
    latest given (first :: rest) = (latest given rest).or (given first) := by
  cases hfirst : given first with
  | none => simp [latest, hfirst]
  | some value => simp [latest, hfirst, List.getLast?_cons, Option.or_some]

theorem latest_singleton {α : Type} (given : Exchange → Option α) (only : Exchange) :
    latest given [only] = given only := by
  rw [latest_cons]
  rfl

/-- The value is what calls gave last, or else what it was before them. -/
def Recalls {α : Type} (given : Exchange → Option α) (trace : List Exchange) (before : Option α)
    (value : α) : Prop :=
  some value = (latest given trace).or before

variable {α : Type} {given : Exchange → Option α} {rest : List Exchange} {first : Exchange}
variable {before : Option α} {value between : α}

theorem Recalls.changed (h : given first = some value) (before : Option α) :
    Recalls given [first] before value := by
  rw [Recalls, latest_singleton, h, Option.some_or]

theorem Recalls.kept (h : given first = none) : Recalls given [first] (some value) value := by
  rw [Recalls, latest_singleton, h, Option.none_or]

theorem Recalls.cons (h : Recalls given rest (some between) value)
    (hfirst : Recalls given [first] before between) :
    Recalls given (first :: rest) before value := by
  rw [Recalls, latest_singleton] at hfirst
  rw [Recalls, latest_cons, Option.or_assoc, ← hfirst]
  exact h

theorem Recalls.of_none (h : Recalls given rest none value) (first : Exchange)
    (before : Option α) : Recalls given (first :: rest) before value := by
  rw [Recalls, Option.or_none] at h
  rw [Recalls, latest_cons, ← h, Option.some_or, Option.some_or]

end Exchange

namespace Shelf

variable {shelf after : Shelf} {exchange : Exchange} {id : Int}

/-- What stands in a place now follows from the calls that were accepted, and what stood there
before them. -/
structure Told (id : Int) (trace : List Exchange) (before : Option Playlist)
    (playlist : Playlist) : Prop where
  name : Exchange.Recalls (Exchange.named id) trace (before.map (·.name)) playlist.name
  rules : Exchange.Recalls (Exchange.ruled id) trace (before.map (·.rules)) playlist.rules
  kind : Exchange.Recalls (Exchange.kind id) trace (before.map fun p => (p.ownerId, p.isSmart))
    (playlist.ownerId, playlist.isSmart)

variable {rest : List Exchange} {first : Exchange} {before : Option Playlist}
variable {playlist between : Playlist}

theorem Told.nil (id : Int) (playlist : Playlist) : Told id [] (some playlist) playlist := by
  constructor <;> rfl

theorem Told.cons (h : Told id rest (some between) playlist)
    (hfirst : Told id [first] before between) : Told id (first :: rest) before playlist :=
  ⟨h.name.cons hfirst.name, h.rules.cons hfirst.rules, h.kind.cons hfirst.kind⟩

theorem Told.of_none (h : Told id rest none playlist) (first : Exchange)
    (before : Option Playlist) : Told id (first :: rest) before playlist :=
  ⟨h.name.of_none first _, h.rules.of_none first _, h.kind.of_none first _⟩

theorem Move.told (hmove : Move shelf exchange after) (h : shelf.Sound)
    (hafter : after.playlist? id = some playlist) :
    Told id [exchange] (shelf.playlist? id) playlist := by
  have hsame (hkept : shelf.playlist? id = some playlist) (hnamed : exchange.named id = none)
      (hruled : exchange.ruled id = none) (hkind : exchange.kind id = none) :
      Told id [exchange] (shelf.playlist? id) playlist := by
    rw [hkept]
    exact ⟨.kept hnamed, .kept hruled, .kept hkind⟩
  cases hmove with
  | idle hidle => exact hsame hafter (hidle.named id) (hidle.ruled id) (hidle.kind id)
  | @add now new time =>
    rw [playlist?_add] at hafter
    split at hafter
    case isTrue hid =>
      obtain rfl := Option.some.inj hafter
      exact ⟨.changed (if_pos hid.symm) _, .changed (if_pos hid.symm) _, .changed (if_pos hid.symm) _⟩
    case isFalse hid =>
      have hid' : ¬(shelf.fresh new time).id = id := fun h => hid h.symm
      exact hsame hafter (if_neg hid') (if_neg hid') (if_neg hid')
  | @rule _ _ _ rules old time howned =>
    rcases playlist?_put_owned h howned (old.withRules rules time) rfl id with
      ⟨rfl, hput, hfound⟩ | ⟨hid, hput⟩ <;> rw [hput] at hafter
    · obtain rfl := Option.some.inj hafter
      rw [hfound]
      exact ⟨.kept rfl, .changed (if_pos rfl) _, .kept rfl⟩
    · exact hsame hafter rfl (if_neg hid.symm) rfl
  | @rename _ _ _ name old time howned =>
    rcases playlist?_put_owned h howned (old.withName (Text.trim name) time) rfl id with
      ⟨rfl, hput, hfound⟩ | ⟨hid, hput⟩ <;> rw [hput] at hafter
    · obtain rfl := Option.some.inj hafter
      rw [hfound]
      exact ⟨.changed (if_pos rfl) _, .kept rfl, .kept rfl⟩
    · exact hsame hafter (if_neg hid.symm) rfl rfl
  | drop =>
    rw [playlist?_remove] at hafter
    split at hafter
    case isTrue => cases hafter
    case isFalse => exact hsame hafter rfl rfl rfl

/-- What calls make of a shelf, told from the ones that were accepted. -/
structure History (shelf : Shelf) (trace : List Exchange) (last : Shelf) : Prop where
  sound : last.Sound
  used : shelf.used ≤ last.used
  ascending : (trace.filterMap Exchange.made).Pairwise (· < ·)
  fresh : ∀ id ∈ trace.filterMap Exchange.made, (shelf.used : Int) < id
  isSome_iff : ∀ id, (last.playlist? id).isSome ↔
    ((shelf.playlist? id).isSome ∨ id ∈ trace.filterMap Exchange.made) ∧
      id ∉ trace.filterMap Exchange.dropped
  told : ∀ id playlist, last.playlist? id = some playlist →
    Told id trace (shelf.playlist? id) playlist

theorem History.nil (h : shelf.Sound) : History shelf [] shelf := by
  refine ⟨h, le_rfl, .nil, nofun, fun id => by simp, fun id playlist hfound => ?_⟩
  rw [hfound]
  exact .nil id playlist

theorem mem_filterMap_cons {α β : Type} {f : α → Option β} {first : α} {rest : List α} {b : β} :
    b ∈ (first :: rest).filterMap f ↔ b ∈ f first ∨ b ∈ rest.filterMap f := by
  simp [List.mem_filterMap]

/-- A move before a history is a longer history. No id is given out again, so what the move
deletes stays deleted. -/
theorem History.cons {between last : Shelf} (h : shelf.Sound) (hmove : Move shelf first between)
    (hrest : History between rest last) : History shelf (first :: rest) last := by
  obtain ⟨hmade, hidle⟩ := hmove.used_eq
  have hused : shelf.used ≤ between.used := by
    cases hfirst : first.made with
    | none => exact (hidle hfirst).ge
    | some id => exact (hmade id hfirst).2 ▸ Nat.le_succ shelf.used
  have hlater : ∀ id ∈ rest.filterMap Exchange.made, (shelf.used : Int) < id := fun id hid =>
    (Int.ofNat_le.mpr hused).trans_lt (hrest.fresh id hid)
  constructor
  case sound => exact hrest.sound
  case used => exact hused.trans hrest.used
  case ascending =>
    cases hfirst : first.made with
    | none =>
      rw [List.filterMap_cons_none hfirst]
      exact hrest.ascending
    | some id =>
      obtain ⟨rfl, hbetween⟩ := hmade id hfirst
      rw [List.filterMap_cons_some hfirst]
      refine List.pairwise_cons.mpr ⟨fun later hid => ?_, hrest.ascending⟩
      have := hrest.fresh later hid
      omega
  case fresh =>
    intro id hid
    rcases mem_filterMap_cons.mp hid with hfirst | hid
    · have := (hmade id hfirst).1
      omega
    · exact hlater id hid
  case isSome_iff =>
    intro id
    have hgone : id ∈ first.dropped → id ∉ rest.filterMap Exchange.made := by
      intro hdropped hid
      obtain ⟨playlist, hfound⟩ := Option.isSome_iff_exists.mp (hmove.isSome_of_dropped hdropped)
      have := (h.given hfound).2
      have := hlater id hid
      omega
    rw [hrest.isSome_iff, hmove.isSome_iff h, mem_filterMap_cons, mem_filterMap_cons]
    tauto
  case told =>
    intro id playlist hfound
    have htold := hrest.told id playlist hfound
    cases hbetween : between.playlist? id with
    | none =>
      rw [hbetween] at htold
      exact htold.of_none first _
    | some old =>
      rw [hbetween] at htold
      exact htold.cons (hmove.told h hbetween)

theorem run_history (users : Int → Bool) (calls : List PlaylistCall) (h : shelf.Sound) :
    History shelf (Exchange.run (step users) calls shelf).1
      (Exchange.run (step users) calls shelf).2 := by
  induction calls generalizing shelf with
  | nil => exact .nil h
  | cons call rest ih =>
    have hmove := step_moves users call shelf
    exact .cons h hmove (ih (hmove.sound h))

end Shelf

end Setlist
