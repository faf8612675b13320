import Setlist.Proofs.Interactions.Calls

/-! # The history of interactions

What stands in an interaction can be told from the calls that were accepted since its song was
made: its plays from the number of them, its mark from the last like, its times from the first
call and the last play.
-/

namespace Setlist

open Catalogue

namespace Change

def played? (user : Int) (song : String) : Change → Option Instant
  | recordPlay now player played => if player = user ∧ played = song then some now else none
  | _ => none

def marked? (user : Int) (song : String) : Change → Option Bool
  | setLiked _ judge judged liked => if judge = user ∧ judged = song then some liked else none
  | _ => none

def touched? (user : Int) (song : String) : Change → Option Instant
  | recordPlay now player played => if player = user ∧ played = song then some now else none
  | setLiked now judge judged _ => if judge = user ∧ judged = song then some now else none
  | _ => none

def isPlay : Change → Bool
  | recordPlay .. => true
  | _ => false

def deletes (song : String) : Change → Bool
  | deleteSong id => id == song
  | _ => false

def isAnswered (change : Change) (c : Catalogue) : Bool := (change.run c).1.isOk

def runAll (changes : List Change) (c : Catalogue) : Catalogue :=
  changes.foldl (fun c change => change.apply c) c

def accepted : List Change → Catalogue → List Change
  | [], _ => []
  | change :: rest, c =>
    if change.isAnswered c then change :: accepted rest (change.apply c)
    else accepted rest (change.apply c)

/-- The calls since the song was deleted last. None is accepted on a song that is not there, so
those on the song are the ones since it was made. -/
def since (song : String) (calls : List Change) : List Change :=
  calls.rtakeWhile fun call => !call.deletes song

variable {user : Int} {song : String} {calls : List Change} {call : Change}

theorem isAnswered_discard {α : Type} {action : Action α} {c : Catalogue}
    (h : call.run = discard action) : call.isAnswered c = (action c).1.isOk := by
  rw [isAnswered, h, Action.discard_run]
  cases (action c).1 <;> rfl

theorem played?_of_touched? (h : call.touched? user song = none) :
    call.played? user song = none := by
  cases call <;> first | exact h | rfl

theorem marked?_of_touched? (h : call.touched? user song = none) :
    call.marked? user song = none := by
  cases call with
  | setLiked now judge judged liked =>
    by_cases hkey : judge = user ∧ judged = song <;> simp_all [touched?, marked?]
  | _ => rfl

theorem since_concat (song : String) (calls : List Change) (call : Change) :
    since song (calls ++ [call]) =
      if call.deletes song then [] else since song calls ++ [call] := by
  rw [since, List.rtakeWhile_concat]
  cases call.deletes song <;> rfl

theorem runAll_concat (changes : List Change) (change : Change) (c : Catalogue) :
    runAll (changes ++ [change]) c = change.apply (runAll changes c) := List.foldl_append

theorem reachable_runAll {changes : List Change} (h : ∀ change ∈ changes, change.Typed) :
    (runAll changes .empty).Reachable := .foldl h .empty

theorem accepted_sublist (changes : List Change) (c : Catalogue) :
    (accepted changes c).Sublist changes := by
  induction changes generalizing c with
  | nil => exact .slnil
  | cons change rest ih =>
    rw [accepted]
    split
    case isTrue => exact (ih _).cons_cons change
    case isFalse => exact (ih _).cons change

theorem accepted_concat (changes : List Change) (change : Change) (c : Catalogue) :
    accepted (changes ++ [change]) c = accepted changes c ++
      if change.isAnswered (runAll changes c) then [change] else [] := by
  induction changes generalizing c with
  | nil => rfl
  | cons first rest ih =>
    simp only [List.cons_append, accepted, ih, runAll, List.foldl_cons]
    split <;> rfl

end Change

namespace Interactions

open Change

/-- What the interaction of a user with a song is, told from calls in order. -/
structure Told (user : Int) (song : String) (calls : List Change) (row? : Option Interaction) :
    Prop where
  isSome_iff : row?.isSome ↔ calls.filterMap (touched? user song) ≠ []
  playCount : ∀ i ∈ row?, i.playCount = (calls.filterMap (played? user song)).length
  liked : ∀ i ∈ row?, i.liked = (calls.filterMap (marked? user song)).getLast?.getD false
  createdAt : ∀ i ∈ row?,
    some i.createdAt = (calls.filterMap (touched? user song)).head?.bind Timestamp.stamp?
  updatedAt : ∀ i ∈ row?,
    some i.updatedAt = ((calls.filterMap (played? user song)).getLast?.or
      (calls.filterMap (touched? user song)).head?).bind Timestamp.stamp?

variable {user : Int} {song : String} {calls : List Change} {call : Change}
  {row? : Option Interaction} {now : Instant} {time : String}

theorem Told.nil (user : Int) (song : String) : Told user song [] none := by
  constructor <;> simp

theorem Told.idle (h : Told user song calls row?) (hidle : call.touched? user song = none) :
    Told user song (calls ++ [call]) row? := by
  have htouched : (calls ++ [call]).filterMap (touched? user song) =
      calls.filterMap (touched? user song) := by simp [hidle]
  have hplayed : (calls ++ [call]).filterMap (played? user song) =
      calls.filterMap (played? user song) := by simp [played?_of_touched? hidle]
  have hmarked : (calls ++ [call]).filterMap (marked? user song) =
      calls.filterMap (marked? user song) := by simp [marked?_of_touched? hidle]
  constructor <;> simp only [htouched, hplayed, hmarked]
  exacts [h.isSome_iff, h.playCount, h.liked, h.createdAt, h.updatedAt]

theorem Told.untouched (h : Told user song calls none) :
    calls.filterMap (touched? user song) = [] ∧ calls.filterMap (played? user song) = [] ∧
      calls.filterMap (marked? user song) = [] := by
  have hnone : calls.filterMap (touched? user song) = [] := by
    simpa using h.isSome_iff
  refine ⟨hnone, List.filterMap_eq_nil_iff.mpr fun call hcall => ?_,
    List.filterMap_eq_nil_iff.mpr fun call hcall => ?_⟩
  · exact played?_of_touched? (List.filterMap_eq_nil_iff.mp hnone call hcall)
  · exact marked?_of_touched? (List.filterMap_eq_nil_iff.mp hnone call hcall)

theorem Told.exists_head (h : Told user song calls row?) {i : Interaction} (hi : i ∈ row?) :
    ∃ first, (calls.filterMap (touched? user song)).head? = some first := by
  have hne := h.isSome_iff.mp (Option.isSome_iff_exists.mpr ⟨i, hi⟩)
  exact ⟨_, List.head?_eq_some_head hne⟩

theorem Told.play (h : Told user song calls row?) (htime : Timestamp.stamp? now = some time)
    (hcount : ∀ i ∈ row?, i.playCount + 1 < Interaction.countLimit) :
    Told user song (calls ++ [.recordPlay now user song])
      (some (afterPlay time user song row?)) := by
  have htouched : touched? user song (.recordPlay now user song) = some now := if_pos ⟨rfl, rfl⟩
  have hplayed : played? user song (.recordPlay now user song) = some now := if_pos ⟨rfl, rfl⟩
  have hmarked : marked? user song (.recordPlay now user song) = none := rfl
  cases row? with
  | none =>
    obtain ⟨htouches, hplays, hmarks⟩ := h.untouched
    constructor <;> simp [htouched, hplayed, hmarked, htouches, hplays, hmarks, afterPlay, htime]
  | some i =>
    obtain ⟨first, hfirst⟩ := h.exists_head rfl
    have hmore : Interactions.played i.playCount = i.playCount + 1 := min_eq_left (hcount i rfl).le
    constructor
    case playCount => simpa [hplayed, afterPlay, hmore] using h.playCount i rfl
    case liked => simpa [hmarked, afterPlay] using h.liked i rfl
    case createdAt => simpa [htouched, afterPlay, hfirst] using h.createdAt i rfl
    all_goals simp [htouched, hplayed, afterPlay, htime]

/-- A mark is the last one; of a song that was not touched it is the first that happens. -/
theorem Told.mark (h : Told user song calls row?) (htime : Timestamp.stamp? now = some time)
    (liked : Bool) :
    Told user song (calls ++ [.setLiked now user song liked])
      (some (afterMark time user song liked row?)) := by
  have htouched : touched? user song (.setLiked now user song liked) = some now :=
    if_pos ⟨rfl, rfl⟩
  have hplayed : played? user song (.setLiked now user song liked) = none := rfl
  have hmarked : marked? user song (.setLiked now user song liked) = some liked :=
    if_pos ⟨rfl, rfl⟩
  cases row? with
  | none =>
    obtain ⟨htouches, hplays, hmarks⟩ := h.untouched
    constructor <;> simp [htouched, hplayed, hmarked, htouches, hplays, afterMark, htime]
  | some i =>
    obtain ⟨first, hfirst⟩ := h.exists_head rfl
    constructor
    case playCount => simpa [hplayed, afterMark] using h.playCount i rfl
    case createdAt => simpa [htouched, afterMark, hfirst] using h.createdAt i rfl
    case updatedAt => simpa [htouched, hplayed, afterMark, hfirst] using h.updatedAt i rfl
    all_goals simp [htouched, hmarked, afterMark]

/-- All interactions are told from calls in order. -/
def Recorded (calls : List Change) (c : Catalogue) : Prop :=
  ∀ user song, Told user song (since song calls) (c.interaction? user song)

variable {c d : Catalogue}

theorem Recorded.empty : Recorded [] .empty := fun user song => .nil user song

theorem Recorded.congr (h : Recorded calls c) (hsame : d.interactions = c.interactions) :
    Recorded calls d := by
  intro user song
  simpa only [interaction?, hsame] using h user song

theorem Recorded.idle (h : Recorded calls c) (hidle : call.isIdle = true) :
    Recorded (calls ++ [call]) c := by
  intro user song
  have hkept : call.deletes song = false := by cases call <;> first | rfl | cases hidle
  have htouched : call.touched? user song = none := by cases call <;> first | rfl | cases hidle
  rw [since_concat, hkept]
  exact (h user song).idle htouched

theorem Recorded.writes {i : Interaction} (h : Recorded calls c) (hwrites : Writes c i d)
    (hkey : i.userId = user ∧ i.songId = song) (hkept : ∀ song, call.deletes song = false)
    (htold : Told user song (since song calls ++ [call]) (some i))
    (hother : ∀ user' song', ¬(user' = user ∧ song' = song) →
      call.touched? user' song' = none) : Recorded (calls ++ [call]) d := by
  obtain ⟨rfl, rfl⟩ := hkey
  intro user song
  rw [since_concat, hkept, if_neg Bool.false_ne_true, hwrites.found]
  split
  case isTrue hkey =>
    obtain ⟨rfl, rfl⟩ := hkey
    exact htold
  case isFalse hkey => exact (h user song).idle (hother user song hkey)

theorem Recorded.delete {id : String} (h : Recorded calls c) :
    Recorded (calls ++ [.deleteSong id]) { c with
      songs := c.songs.filter (·.id != id)
      interactions := c.interactions.filter (·.songId != id) } := by
  intro user song
  rw [since_concat, interaction?_dropped]
  by_cases hsong : song = id
  · rw [if_pos hsong, if_pos (by simp [deletes, hsong])]
    exact .nil user song
  · rw [if_neg hsong, if_neg (by simp [deletes, Ne.symm hsong])]
    exact (h user song).idle rfl

theorem afterPlay_readable (h : ∀ i ∈ row?, i.playCount + 1 < Interaction.countLimit) :
    (afterPlay time user song row?).playCount < Interaction.countLimit := by
  cases row? with
  | none => exact (by decide : (1 : Int) < Interaction.countLimit)
  | some i => exact (min_le_left _ _).trans_lt (h i rfl)

theorem afterMark_readable {liked : Bool}
    (h : ∀ i ∈ row?, i.playCount < Interaction.countLimit) :
    (afterMark time user song liked row?).playCount < Interaction.countLimit := by
  cases row? with
  | none => exact (by decide : (0 : Int) < Interaction.countLimit)
  | some i => exact h i rfl

theorem answer_of_readable {i : Interaction} (h : i.playCount < Interaction.countLimit) :
    answer i = .ok i := if_neg (not_le.mpr h)

/-- One call more, if it is answered, and as long as its plays can be counted. -/
theorem Recorded.step (hc : c.Reachable) (h : Recorded calls c) (htyped : call.Typed)
    (hcount : ∀ user song, ∀ i ∈ c.interaction? user song,
      i.playCount + [call].countP isPlay < Interaction.countLimit) :
    Recorded (calls ++ if call.isAnswered c then [call] else []) (call.apply c) := by
  by_cases hidle : call.isIdle = true
  · refine Recorded.congr ?_ (interactions_apply hc htyped hidle)
    split
    case isTrue => exact h.idle hidle
    case isFalse => simpa using h
  cases call with
  | deleteSong id =>
    rw [apply, isAnswered, run]
    rcases Songs.delete_cases id c with ⟨e, hdelete⟩ | hdelete <;> rw [hdelete]
    · simpa [Except.isOk, Except.toBool] using h
    · exact h.delete
  | recordPlay now user song =>
    rw [apply, isAnswered_discard rfl]
    rcases recordPlay_cases now user song c with ⟨e, hplay⟩ | ⟨time, d, htime, -, hwrites, hplay⟩ <;>
      rw [hplay]
    · simpa [Except.isOk, Except.toBool] using h
    · have hmore : ∀ i ∈ c.interaction? user song, i.playCount + 1 < Interaction.countLimit :=
        hcount user song
      rw [answer_of_readable (afterPlay_readable hmore)]
      refine h.writes hwrites (written_key (fun _ => ⟨rfl, rfl⟩) ⟨rfl, rfl⟩) (fun _ => rfl)
        ((h user song).play htime hmore) fun _ _ hother => if_neg fun hsame => hother ?_
      exact hsame.imp Eq.symm Eq.symm
  | setLiked now user song liked =>
    rw [apply, isAnswered_discard rfl]
    rcases setLiked_cases now user song liked c with
      ⟨e, hmark⟩ | ⟨time, d, htime, -, hwrites, hmark⟩ <;> rw [hmark]
    · simpa [Except.isOk, Except.toBool] using h
    · have hreadable : ∀ i ∈ c.interaction? user song, i.playCount < Interaction.countLimit :=
        fun i hi => by simpa [isPlay] using hcount user song i hi
      rw [answer_of_readable (afterMark_readable hreadable)]
      refine h.writes hwrites (written_key (fun _ => ⟨rfl, rfl⟩) ⟨rfl, rfl⟩) (fun _ => rfl)
        ((h user song).mark htime liked) fun _ _ hother => if_neg fun hsame => hother ?_
      exact hsame.imp Eq.symm Eq.symm
  | _ => exact absurd rfl hidle

theorem length_played_le (changes : List Change) (c : Catalogue) (user : Int) (song : String) :
    ((since song (accepted changes c)).filterMap (played? user song)).length ≤
      changes.countP isPlay := by
  have hsince : (since song (accepted changes c)).Sublist (accepted changes c) :=
    (List.rtakeWhile_suffix _ _).sublist
  rw [List.length_filterMap_eq_countP]
  refine (hsince.trans (accepted_sublist changes c)).countP_le.trans
    (List.countP_mono_left fun change _ hplayed => ?_)
  cases change <;> first | rfl | cases hplayed

theorem recorded_runAll {changes : List Change} (htyped : ∀ change ∈ changes, change.Typed)
    (hplays : changes.countP isPlay < 2 ^ 63) :
    Recorded (accepted changes .empty) (runAll changes .empty) := by
  induction changes using List.reverseRecOn with
  | nil => exact .empty
  | append_singleton changes change ih =>
    obtain ⟨hbefore, hchange⟩ := List.forall_mem_append.mp htyped
    rw [List.countP_append] at hplays
    have hrecorded := ih hbefore (by omega)
    rw [accepted_concat, runAll_concat]
    refine hrecorded.step (reachable_runAll hbefore) (hchange change List.mem_cons_self)
      fun user song i hi => ?_
    have hcount := length_played_le changes .empty user song
    rw [(hrecorded user song).playCount i hi]
    unfold Interaction.countLimit
    omega

end Interactions

end Setlist
