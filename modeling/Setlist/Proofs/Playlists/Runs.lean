import Setlist.Proofs.Playlists.History
import Setlist.Proofs.Playlists.Rows

/-! # Runs of calls on playlists

Users create, change, delete and read playlists. Whatever they call, what they observe is a map
from ids to playlists that only the owners see or change.
-/

namespace Setlist

open Catalogue

variable {c : Catalogue}

namespace Interactions

theorem shelf_upsert (fresh : Interaction) (change : Interaction → Interaction) (c : Catalogue) :
    (upsert fresh change c).2.shelf = c.shelf := by
  simp only [upsert, Action.get_bind_run]
  split
  case isTrue =>
    simp only [Action.set_bind_run, readBack_run_snd]
    rfl
  case isFalse =>
    simp only [Action.failWhen_bind_run, Action.set_bind_run]
    split
    case isTrue => rfl
    case isFalse =>
      rw [readBack_run_snd]
      rfl

theorem shelf_stamped (now : Instant) (song : String) {f : String → Action Interaction}
    (h : ∀ time, (f time c).2.shelf = c.shelf) :
    ((stamp now song >>= f) c).2.shelf = c.shelf := by
  rw [stamp_bind_run, Action.stamp_bind_run]
  split
  case isTrue =>
    split
    case h_1 time _ => exact h time
    case h_2 => rfl
  case isFalse => rfl

end Interactions

namespace Catalogue

theorem Moves.shelf_eq {d : Catalogue} (h : Moves c none d) : d.shelf = c.shelf := by
  rcases h with rfl | hstep
  · rfl
  · cases hstep <;> rfl

/-- A change is a call on the playlists, or leaves them as they are. -/
theorem apply_call_or_same {change : Change} (htyped : change.Typed) (c : Catalogue) :
    (∃ call : PlaylistCall, call.Typed ∧ (call.run c).2 = change.apply c) ∨
      (change.apply c).shelf = c.shelf := by
  have hshared (howner : change.owner = none) : (change.apply c).shelf = c.shelf := by
    have hmoves := Change.apply_moves htyped c
    rw [howner] at hmoves
    exact hmoves.shelf_eq
  cases change with
  | recordPlay now user song =>
    exact .inr (Interactions.shelf_stamped now song fun time => Interactions.shelf_upsert _ _ c)
  | setLiked now user song liked =>
    exact .inr (Interactions.shelf_stamped now song fun time => Interactions.shelf_upsert _ _ c)
  | createPlaylist now new =>
    exact .inl ⟨.create now new, htyped, by simp only [PlaylistCall.run, Change.apply]⟩
  | updateRules now id user rules =>
    exact .inl ⟨.updateRules now id user rules, htyped,
      by simp only [PlaylistCall.run, Change.apply]⟩
  | renamePlaylist now id user name =>
    exact .inl ⟨.rename now id user name, trivial,
      by simp only [PlaylistCall.run, Change.apply]⟩
  | deletePlaylist id user =>
    exact .inl ⟨.delete id user, trivial, by simp only [PlaylistCall.run, Change.apply]⟩
  | _ => exact .inr (hshared rfl)

theorem Reachable.run (hc : c.Reachable) {call : PlaylistCall} (htyped : call.Typed) :
    (call.run c).2.Reachable := by
  cases call <;> simp only [PlaylistCall.run]
  case create now new => exact .change (.createPlaylist now new) htyped hc
  case updateRules now id user rules => exact .change (.updateRules now id user rules) htyped hc
  case rename now id user name => exact .change (.renamePlaylist now id user name) trivial hc
  case delete id user => exact .change (.deletePlaylist id user) trivial hc
  all_goals exact hc

theorem shelf_empty_sound : (shelf .empty).Sound := by
  constructor <;> intro id playlist hfound <;> cases hfound

theorem Reachable.shelf_sound (h : c.Reachable) : c.shelf.Sound := by
  induction h with
  | empty => exact shelf_empty_sound
  | @change c change htyped hc ih =>
    rcases apply_call_or_same htyped c with ⟨call, hcall, hrun⟩ | hsame
    · rw [← hrun, (run_refines hc.invariant ih hcall).shelf]
      exact (Shelf.step_moves c.hasUser call c.shelf).sound ih
    · rw [hsame]
      exact ih

/-- Calls one after another are answered as from the shelf. -/
theorem run_eq_shelf (hc : c.Reachable) {calls : List PlaylistCall}
    (htyped : ∀ call ∈ calls, call.Typed) :
    (Exchange.run PlaylistCall.run calls c).1 =
        (Exchange.run (Shelf.step c.hasUser) calls c.shelf).1 ∧
      (Exchange.run PlaylistCall.run calls c).2.shelf =
        (Exchange.run (Shelf.step c.hasUser) calls c.shelf).2 ∧
      (Exchange.run PlaylistCall.run calls c).2.Reachable := by
  induction calls generalizing c with
  | nil => exact ⟨rfl, rfl, hc⟩
  | cons call rest ih =>
    obtain ⟨hcall, hrest⟩ := List.forall_mem_cons.mp htyped
    have hrefines := run_refines hc.invariant hc.shelf_sound hcall
    -- no call makes a user, so the rest of the run takes the same steps on the shelf
    have husers : (call.run c).2.hasUser = c.hasUser := by
      funext id
      simp only [hasUser, user?, hrefines.elsewhere.users]
    obtain ⟨htrace, hlast, hreachable⟩ := ih (hc.run hcall) hrest
    rw [husers, hrefines.shelf] at htrace hlast
    simp only [Exchange.run, Prod.map_fst, Prod.map_snd, hrefines.answer, htrace]
    exact ⟨trivial, hlast, hreachable⟩

/-- What is observed of playlists in a catalogue `d` that calls on `c` have led to. -/
structure Observed (c : Catalogue) (trace : List Exchange) (d : Catalogue) : Prop where
  history : c.shelf.History trace d.shelf
  found : ∀ id user, Playlists.get? d id user =
    .ok ((d.shelf.playlist? id).filter (·.ownerId == user))
  listed : ∀ user, ∃ playlists, Playlists.ofUser d user = .ok playlists ∧
    (playlists.map (·.id)).Nodup ∧ ∀ playlist, playlist ∈ playlists ↔
      d.shelf.playlist? playlist.id = some playlist ∧ playlist.ownerId = user
  refused : ∀ call : PlaylistCall, call.Typed → d.shelf.Unacceptable call → (call.run d).1.IsRefusal
  unchanged : ∀ call : PlaylistCall, call.Typed → (call.run d).1.IsRefusal → (call.run d).2 = d

/-- Users observe a map from ids to playlists. Any run of calls is answered as from the map. An
id is given out once; a playlist is there if it was created and not deleted, with the name and
the rules that were accepted last, which compile if it is smart. Only its owner sees it, and a
call that is refused changes nothing. -/
theorem playlists_refine_shelf (hc : c.Reachable) {calls : List PlaylistCall}
    (htyped : ∀ call ∈ calls, call.Typed) {trace : List Exchange} {d : Catalogue}
    (hrun : Exchange.run PlaylistCall.run calls c = (trace, d)) :
    Exchange.run (Shelf.step c.hasUser) calls c.shelf = (trace, d.shelf) ∧
      c.Observed trace d := by
  obtain ⟨htrace, hlast, hd⟩ := run_eq_shelf hc htyped
  rw [hrun] at htrace hlast hd
  refine ⟨Prod.ext htrace.symm hlast.symm, ?_⟩
  have hsound := hd.shelf_sound
  have hrefines {call : PlaylistCall} (hcall : call.Typed) : Refines call d :=
    run_refines hd.invariant hsound hcall
  constructor
  case history =>
    dsimp only at htrace hlast
    rw [htrace, hlast]
    exact Shelf.run_history c.hasUser calls hc.shelf_sound
  case found => exact get?_eq hd.invariant.readable
  case listed =>
    intro user
    exact ⟨_, ofUser_shelf hd.invariant hsound user, hsound.nodup_ofUser user,
      fun _ => hsound.mem_ofUser⟩
  case refused =>
    intro call hcall hunacceptable
    rw [(hrefines hcall).answer]
    exact hunacceptable.isRefusal d.hasUser
  case unchanged => exact fun call hcall => (hrefines hcall).unchanged

def titledWith (text : String) : List GroupRecord :=
  [⟨none, [⟨none, .named "song.title", "contains", [.string text]⟩]⟩]

/-- A playlist is made, renamed and given other rules, not by the other user, and one more is made
and deleted. -/
def someCalls : List PlaylistCall :=
  [.create ⟨0, 0⟩ ⟨1, " mix ", true, titledWith "a"⟩, .rename ⟨0, 0⟩ 1 1 "tape",
    .updateRules ⟨0, 0⟩ 1 1 (titledWith "b"), .rename ⟨0, 0⟩ 1 2 "other",
    .updateRules ⟨0, 0⟩ 1 2 (titledWith "c"), .create ⟨0, 0⟩ ⟨1, "second", true, []⟩, .delete 2 1]

theorem playlists_refine_shelf_someCalls :
    ∃ trace d, Exchange.run PlaylistCall.run someCalls (ofSong "A" "B" "C") = (trace, d) ∧
      (d.shelf.playlist? 1).map (fun p => (p.name, GroupRecord.listFormat.text p.rules)) =
        some ("tape", GroupRecord.listFormat.text (titledWith "b")) ∧
      (d.shelf.playlist? 2).isNone ∧ (ofSong "A" "B" "C").Observed trace d := by
  refine ⟨_, _, Prod.mk.eta.symm, by decide +kernel, by decide +kernel, ?_⟩
  refine (playlists_refine_shelf (reachable_ofSong "A" "B" "C") ?_ Prod.mk.eta.symm).2
  have htyped (text : String) : ∀ group ∈ titledWith text, group.Typed := GroupRecord.typed_single
  simp only [someCalls, List.forall_mem_cons]
  exact ⟨htyped "a", trivial, htyped "b", trivial, htyped "c", nofun, trivial, nofun⟩

end Catalogue

end Setlist
