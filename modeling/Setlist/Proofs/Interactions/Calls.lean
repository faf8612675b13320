import Setlist.Proofs.Catalogue.Failures

/-! # Calls on interactions

A play or a like writes the one interaction of a user with a song, or is refused and changes
nothing. Deleting a song takes its interactions away. No other call touches any interaction.
-/

namespace Setlist

open Catalogue

namespace Interactions

variable {c d : Catalogue} {user : Int} {song : String} {now : Instant}

theorem find?_map_of_kept {α : Type} {test : α → Bool} {change : α → α} {rows : List α}
    (hkeeps : ∀ row, test (change row) = test row)
    (hsame : ∀ row, test row = true → change row = row) :
    (rows.map change).find? test = rows.find? test := by
  induction rows with
  | nil => rfl
  | cons row rest ih =>
    cases hrow : test row with
    | true => simp [hrow, hsame row hrow]
    | false => simp [hkeeps, hrow, ih]

/-- One interaction is written, and all else is as it was. -/
structure Writes (c : Catalogue) (i : Interaction) (d : Catalogue) : Prop where
  elsewhere : ∃ interactions, d = { c with interactions := interactions }
  found : ∀ user song, d.interaction? user song =
    if user = i.userId ∧ song = i.songId then some i else c.interaction? user song

theorem isBetween_iff {i : Interaction} :
    isBetween user song i = true ↔ i.userId = user ∧ i.songId = song := by
  simp [isBetween]

theorem interaction?_key {i : Interaction} (h : c.interaction? user song = some i) :
    i.userId = user ∧ i.songId = song :=
  isBetween_iff.mp (List.find?_some h)

theorem writes_changed {change : Interaction → Interaction} {i : Interaction}
    (hkeeps : ∀ i, (change i).userId = i.userId ∧ (change i).songId = i.songId)
    (hi : c.interaction? user song = some i) :
    Writes c (change i) { c with
      interactions := c.interactions.map fun i => if isBetween user song i then change i else i } := by
  have htest (user' : Int) (song' : String) (row : Interaction) :
      isBetween user' song' (change row) = isBetween user' song' row := by
    rw [isBetween, isBetween, (hkeeps row).1, (hkeeps row).2]
  obtain ⟨huser, hsong⟩ := interaction?_key hi
  refine ⟨⟨_, rfl⟩, fun user' song' => ?_⟩
  rw [(hkeeps i).1, (hkeeps i).2, huser, hsong]
  by_cases hkey : user' = user ∧ song' = song
  · obtain ⟨rfl, rfl⟩ := hkey
    rw [if_pos ⟨rfl, rfl⟩]
    exact (find?_changed (htest _ _)).trans (congrArg (Option.map change) hi)
  · rw [if_neg hkey]
    refine find?_map_of_kept (fun row => ?_) fun row hrow => if_neg fun hchanged => hkey ?_
    · split
      case isTrue => exact htest user' song' row
      case isFalse => rfl
    · obtain ⟨huser', hsong'⟩ := isBetween_iff.mp hrow
      obtain ⟨huser, hsong⟩ := isBetween_iff.mp hchanged
      exact ⟨huser'.symm.trans huser, hsong'.symm.trans hsong⟩

theorem writes_added {i : Interaction} (hnone : c.interaction? i.userId i.songId = none) :
    Writes c i { c with interactions := c.interactions ++ [i] } := by
  refine ⟨⟨_, rfl⟩, fun user song => ?_⟩
  change (c.interactions ++ [i]).find? (isBetween user song) = _
  rw [List.find?_append]
  by_cases hkey : user = i.userId ∧ song = i.songId
  · obtain ⟨rfl, rfl⟩ := hkey
    have hfirst : c.interactions.find? (isBetween i.userId i.songId) = none := hnone
    rw [if_pos ⟨rfl, rfl⟩, hfirst, Option.none_or]
    exact List.find?_cons_of_pos (isBetween_iff.mpr ⟨rfl, rfl⟩)
  · have hother : [i].find? (isBetween user song) = none := by
      refine List.find?_eq_none.mpr fun row hrow hbetween => hkey ?_
      obtain rfl := List.mem_singleton.mp hrow
      exact (isBetween_iff.mp hbetween).imp Eq.symm Eq.symm
    rw [if_neg hkey, hother, Option.or_none]
    rfl

/-- What the call made of an interaction is answered, as far as its count can be read. -/
def answer (i : Interaction) : Except CatalogueError Interaction :=
  if Interaction.countLimit ≤ i.playCount then .error (.database .countTooLarge) else .ok i

/-- A call changes nothing, or it writes the interaction it answers with. -/
inductive Outcome (c : Catalogue) (i : Interaction) :
    Except CatalogueError Interaction × Catalogue → Prop where
  | refused (e : CatalogueError) : Outcome c i (.error e, c)
  | written {d : Catalogue} : Writes c i d → Outcome c i (answer i, d)

theorem upsert_outcome (fresh : Interaction) {change : Interaction → Interaction}
    (hkeeps : ∀ i, (change i).userId = i.userId ∧ (change i).songId = i.songId)
    (hfresh : fresh.playCount < Interaction.countLimit) :
    Outcome c (((c.interaction? fresh.userId fresh.songId).map change).getD fresh)
      (upsert fresh change c) := by
  cases hbefore : c.interaction? fresh.userId fresh.songId with
  | some i =>
    rw [upsert_found hkeeps hbefore, Option.map_some, Option.getD_some, ← answer]
    exact .written (writes_changed hkeeps hbefore)
  | none =>
    rw [upsert_added change hbefore hfresh]
    split
    case isTrue => exact .refused _
    case isFalse =>
      have hanswer : answer fresh = .ok fresh := if_neg (not_le.mpr hfresh)
      exact hanswer ▸ .written (writes_added hbefore)

theorem stamped_cases {f : String → Action Interaction} {row : String → Interaction}
    (h : ∀ time, Outcome c (row time) (f time c)) :
    (∃ e, (stamp now song >>= f) c = (.error e, c)) ∨
      ∃ time d, Timestamp.stamp? now = some time ∧ (c.song? song).isSome ∧
        Writes c (row time) d ∧ (stamp now song >>= f) c = (answer (row time), d) := by
  rw [stamp_bind_run]
  split
  case isFalse => exact .inl ⟨_, rfl⟩
  case isTrue hsong =>
    rw [Action.stamp_bind_run]
    split
    case h_2 => exact .inl ⟨_, rfl⟩
    case h_1 time htime =>
      have houtcome := h time
      generalize f time c = result at houtcome ⊢
      cases houtcome with
      | refused e => exact .inl ⟨e, rfl⟩
      | written hwrites => exact .inr ⟨time, _, htime, hsong, hwrites, rfl⟩

def afterPlay (time : String) (user : Int) (song : String) (before : Option Interaction) :
    Interaction :=
  (before.map fun i => { i with playCount := played i.playCount, updatedAt := time }).getD
    ⟨user, song, false, 1, time, time⟩

def afterMark (time : String) (user : Int) (song : String) (liked : Bool)
    (before : Option Interaction) : Interaction :=
  (before.map fun i => { i with liked := liked }).getD ⟨user, song, liked, 0, time, time⟩

theorem written_key {fresh : Interaction} {change : Interaction → Interaction}
    (hkeeps : ∀ i, (change i).userId = i.userId ∧ (change i).songId = i.songId)
    (hfresh : fresh.userId = user ∧ fresh.songId = song) :
    let i := ((c.interaction? user song).map change).getD fresh
    i.userId = user ∧ i.songId = song := by
  cases hrow : c.interaction? user song with
  | none => exact hfresh
  | some i =>
    obtain ⟨huser, hsong⟩ := interaction?_key hrow
    exact ⟨(hkeeps i).1.trans huser, (hkeeps i).2.trans hsong⟩

theorem Writes.found_changed {fresh i : Interaction} {change : Interaction → Interaction}
    (h : Writes c (((c.interaction? user song).map change).getD fresh) d)
    (hkeeps : ∀ i, (change i).userId = i.userId ∧ (change i).songId = i.songId)
    (hfresh : fresh.userId = user ∧ fresh.songId = song)
    {other : Int} {played : String} (hi : c.interaction? other played = some i) :
    d.interaction? other played =
      some (if other = user ∧ played = song then change i else i) := by
  obtain ⟨huser, hsong⟩ := written_key hkeeps hfresh
  rw [h.found, huser, hsong]
  by_cases hkey : other = user ∧ played = song
  · obtain ⟨rfl, rfl⟩ := hkey
    rw [if_pos ⟨rfl, rfl⟩, if_pos ⟨rfl, rfl⟩, hi]
    rfl
  · rw [if_neg hkey, if_neg hkey, hi]

theorem recordPlay_cases (now : Instant) (user : Int) (song : String) (c : Catalogue) :
    (∃ e, recordPlay now user song c = (.error e, c)) ∨
      ∃ time d, Timestamp.stamp? now = some time ∧ (c.song? song).isSome ∧
        Writes c (afterPlay time user song (c.interaction? user song)) d ∧
        recordPlay now user song c =
          (answer (afterPlay time user song (c.interaction? user song)), d) :=
  stamped_cases fun time => upsert_outcome ⟨user, song, false, 1, time, time⟩
    (fun _ => ⟨rfl, rfl⟩) (by decide : (1 : Int) < Interaction.countLimit)

theorem setLiked_cases (now : Instant) (user : Int) (song : String) (liked : Bool)
    (c : Catalogue) :
    (∃ e, setLiked now user song liked c = (.error e, c)) ∨
      ∃ time d, Timestamp.stamp? now = some time ∧ (c.song? song).isSome ∧
        Writes c (afterMark time user song liked (c.interaction? user song)) d ∧
        setLiked now user song liked c =
          (answer (afterMark time user song liked (c.interaction? user song)), d) :=
  stamped_cases fun time => upsert_outcome ⟨user, song, liked, 0, time, time⟩
    (fun _ => ⟨rfl, rfl⟩) (by decide : (0 : Int) < Interaction.countLimit)

theorem setLiked_written {liked : Bool}
    (hanswered : (setLiked now user song liked c).1.isOk = true) :
    ∃ time, Timestamp.stamp? now = some time ∧
      Writes c (afterMark time user song liked (c.interaction? user song))
        (setLiked now user song liked c).2 := by
  rcases setLiked_cases now user song liked c with
    ⟨e, hmark⟩ | ⟨time, d, htime, -, hwrites, hmark⟩ <;> rw [hmark] at hanswered ⊢
  · cases hanswered
  · exact ⟨time, htime, hwrites⟩

theorem setLiked_found {i : Interaction} {liked : Bool}
    (hi : c.interaction? user song = some i)
    (hanswered : (setLiked now user song liked c).1.isOk = true) :
    (setLiked now user song liked c).2.interaction? user song = some { i with liked := liked } := by
  obtain ⟨time, -, hwrites⟩ := setLiked_written hanswered
  rw [hwrites.found_changed (fun _ => ⟨rfl, rfl⟩) ⟨rfl, rfl⟩ hi, if_pos ⟨rfl, rfl⟩]

end Interactions

namespace Songs

theorem delete_cases (id : String) (c : Catalogue) :
    (∃ e, delete id c = (.error e, c)) ∨
      delete id c = (.ok (), { c with
        songs := c.songs.filter (·.id != id)
        interactions := c.interactions.filter (·.songId != id) }) := by
  simp only [delete, Action.get_bind_run, Action.failWhen_bind_run]
  split
  case isTrue => exact .inl ⟨_, rfl⟩
  case isFalse => exact .inr rfl

end Songs

theorem Catalogue.interaction?_dropped (c : Catalogue) (id : String) (user : Int) (song : String) :
    interaction? { c with
      songs := c.songs.filter (·.id != id)
      interactions := c.interactions.filter (·.songId != id) } user song =
      if song = id then none else c.interaction? user song := by
  rw [interaction?, List.find?_filter]
  split
  case isTrue hsong =>
    refine List.find?_eq_none.mpr fun i _ => ?_
    simp_all
  case isFalse hsong =>
    refine congrArg (List.find? · c.interactions) (funext fun i => ?_)
    by_cases hkey : i.songId = song
    · simp [hkey, hsong, beq_eq_decide]
    · simp [hkey]

namespace Change

def isIdle : Change → Bool
  | recordPlay .. | setLiked .. | deleteSong _ => false
  | _ => true

theorem interactions_createUser (now : Instant) (name : String) (c : Catalogue) :
    (Users.create now name c).2.interactions = c.interactions := by
  simp only [Users.create, Action.failWhen_bind_run, Action.stamp_bind_run, Action.get_bind_run,
    Action.set_bind_run]
  repeat' split
  all_goals simp

theorem interactions_createArtist (now : Instant) (artist : NewArtist) (c : Catalogue) :
    (Artists.create now artist c).2.interactions = c.interactions := by
  simp only [Artists.create, Action.failWhen_bind_run, Action.stamp_bind_run, Action.get_bind_run,
    Action.set_bind_run]
  repeat' split
  all_goals simp

theorem interactions_createAlbum (now : Instant) (album : NewAlbum) (c : Catalogue) :
    (Albums.create now album c).2.interactions = c.interactions := by
  simp only [Albums.create, Action.failWhen_bind_run, Action.stamp_bind_run, Action.get_bind_run,
    Action.set_bind_run]
  repeat' split
  all_goals simp

theorem interactions_createSong (now : Instant) (song : NewSong) (id : String) (c : Catalogue) :
    (Songs.create now song id c).2.interactions = c.interactions := by
  rcases Songs.create_cases now song id c with ⟨e, he⟩ | ⟨row, -, -, hmade⟩
  · rw [he]
  · rw [hmade, Action.readBack_run_snd]

theorem interactions_apply {c : Catalogue} (hc : c.Reachable) {change : Change}
    (htyped : change.Typed) (hidle : change.isIdle = true) :
    (change.apply c).interactions = c.interactions := by
  have hplaylists {call : PlaylistCall} (hcall : call.Typed)
      (hrun : (call.run c).2 = change.apply c) :
      (change.apply c).interactions = c.interactions :=
    hrun ▸ (Playlists.refines_of_reachable hc hcall).elsewhere.interactions
  cases change with
  | createUser now name =>
    rw [apply]
    exact interactions_createUser now name c
  | createArtist now artist =>
    rw [apply]
    exact interactions_createArtist now artist c
  | findOrCreateArtist now name =>
    simp only [apply, Artists.findOrCreate, Action.get_bind_run]
    cases Artists.find? c name with
    | some _ => rfl
    | none => exact interactions_createArtist now ⟨name⟩ c
  | createAlbum now album =>
    rw [apply]
    exact interactions_createAlbum now album c
  | createSong now song id =>
    rw [apply]
    exact interactions_createSong now song id c
  | deleteSong | recordPlay | setLiked => cases hidle
  | createPlaylist now new =>
    exact @hplaylists (.create now new) htyped (by simp only [PlaylistCall.run, apply])
  | updateRules now id user rules =>
    exact @hplaylists (.updateRules now id user rules) htyped
      (by simp only [PlaylistCall.run, apply])
  | renamePlaylist now id user name =>
    exact @hplaylists (.rename now id user name) trivial
      (by simp only [PlaylistCall.run, apply])
  | deletePlaylist id user =>
    exact @hplaylists (.delete id user) trivial (by simp only [PlaylistCall.run, apply])

/-- Whatever is called, an interaction that stays was first dated when it is still dated. -/
theorem createdAt_apply {c : Catalogue} (hc : c.Reachable) {change : Change}
    (htyped : change.Typed) {user : Int} {song : String} {i j : Interaction}
    (hi : c.interaction? user song = some i)
    (hj : (change.apply c).interaction? user song = some j) : j.createdAt = i.createdAt := by
  have hkept (h : c.interaction? user song = some j) : j.createdAt = i.createdAt :=
    congrArg _ (Option.some.inj (h.symm.trans hi))
  by_cases hidle : change.isIdle = true
  · exact hkept (by simpa only [interaction?, interactions_apply hc htyped hidle] using hj)
  cases change with
  | deleteSong id =>
    rw [apply] at hj
    rcases Songs.delete_cases id c with ⟨e, hdelete⟩ | hdelete <;> rw [hdelete] at hj
    · exact hkept hj
    · rw [interaction?_dropped] at hj
      split at hj
      case isTrue => cases hj
      case isFalse => exact hkept hj
  | recordPlay now player played =>
    rw [apply] at hj
    rcases Interactions.recordPlay_cases now player played c with
      ⟨e, hplay⟩ | ⟨time, d, -, -, hwrites, hplay⟩ <;> rw [hplay] at hj
    · exact hkept hj
    · obtain rfl := Option.some.inj
        (hj.symm.trans (hwrites.found_changed (fun _ => ⟨rfl, rfl⟩) ⟨rfl, rfl⟩ hi))
      split <;> rfl
  | setLiked now judge judged liked =>
    rw [apply] at hj
    rcases Interactions.setLiked_cases now judge judged liked c with
      ⟨e, hmark⟩ | ⟨time, d, -, -, hwrites, hmark⟩ <;> rw [hmark] at hj
    · exact hkept hj
    · obtain rfl := Option.some.inj
        (hj.symm.trans (hwrites.found_changed (fun _ => ⟨rfl, rfl⟩) ⟨rfl, rfl⟩ hi))
      split <;> rfl
  | _ => exact absurd rfl hidle

end Change

end Setlist
