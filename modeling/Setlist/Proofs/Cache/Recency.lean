import Setlist.Proofs.Cache.Index

/-! # A cache is a list of owned entries

The entries of a cache and its index of playlists are kept apart, and every operation changes
both. Together they stand for one list, the latest used first, in which each entry has the
playlist it was compiled for as its owner.
-/

namespace Setlist

/-- A compiled expression that is kept, and the playlist it was compiled for. -/
structure Owned where
  owner : Int
  entry : Entry

/-- A plain list of what is kept, the latest used first, with room for so many. -/
structure Ledger where
  room : Nat
  kept : List Owned
  compiled : Nat

namespace Ledger

def empty (room : Nat) : Ledger := ⟨room, [], 0⟩

/-- What is kept comes to the front and keeps its owner. What is not is compiled for the playlist
and put in front, unless it is at fault, and then the last one leaves if there is no room. -/
def getOrCompile (ledger : Ledger) (playlist user : Int) (groups : List GroupRecord) :
    Except (List RuleFault) Entry × Ledger :=
  let key := Content.key user groups
  match ledger.kept.find? (·.entry.key == key) with
  | some found =>
    (.ok found.entry, { ledger with kept := found :: ledger.kept.filter (·.entry.key != key) })
  | none =>
    match GroupRecord.compileStrict user groups with
    | .error faults => (.error faults, ledger)
    | .ok expression =>
      let entry : Entry := ⟨key, ledger.compiled, expression⟩
      let grown := ⟨playlist, entry⟩ :: ledger.kept
      (.ok entry, { ledger with
        kept := if grown.length ≤ ledger.room then grown else grown.dropLast
        compiled := ledger.compiled + 1 })

def invalidate (ledger : Ledger) (playlist : Int) : Ledger :=
  { ledger with kept := ledger.kept.filter (·.owner != playlist) }

def clear (ledger : Ledger) : Ledger := { ledger with kept := [] }

/-- No content is kept twice, and there is room for all. -/
structure Orderly (ledger : Ledger) : Prop where
  room : 0 < ledger.room
  keys : (ledger.kept.map (·.entry.key)).Nodup
  size : ledger.kept.length ≤ ledger.room

end Ledger

namespace Cache

/-- The entries are those of the list, and the index notes each key for its owner. -/
structure Represents (cache : Cache) (ledger : Ledger) : Prop where
  capacity : cache.capacity = ledger.room
  compiled : cache.compiled = ledger.compiled
  entries : cache.entries = ledger.kept.map (·.entry)
  indexes : ∀ playlist key, cache.Indexes playlist key ↔
    ∃ owned ∈ ledger.kept, owned.owner = playlist ∧ owned.entry.key = key
  tidy : cache.Tidy

/-- Where keys differ, to take away the keys of the last items is to take away these items. -/
theorem filter_keys_drop {α : Type} {key : α → Digest} {items : List α}
    (h : (items.map key).Nodup) (count : Nat) :
    (items.filter fun item => key item ∉ (items.drop count).map key) = items.take count := by
  induction count generalizing items with
  | zero =>
    refine List.filter_eq_nil_iff.mpr fun item hitem => ?_
    simpa using ⟨item, hitem, rfl⟩
  | succ count ih =>
    cases items with
    | nil => rfl
    | cons first rest =>
      obtain ⟨hfirst, hrest⟩ := List.nodup_cons.mp h
      have hkept : key first ∉ (rest.drop count).map key :=
        fun hmem => hfirst (((List.drop_sublist _ _).map _).subset hmem)
      rw [List.drop_succ_cons, List.take_succ_cons, List.filter_cons_of_pos (by simpa using hkept),
        ih hrest]

theorem mem_take_iff {α : Type} {key : α → Digest} {items : List α} (h : (items.map key).Nodup)
    {count : Nat} {item : α} :
    item ∈ items.take count ↔ item ∈ items ∧ key item ∉ (items.drop count).map key := by
  rw [← filter_keys_drop h, List.mem_filter, decide_eq_true_iff]

end Cache

namespace Ledger

variable {ledger : Ledger}

theorem Orderly.promote_perm (h : ledger.Orderly) {found : Owned} (hfound : found ∈ ledger.kept) :
    (found :: ledger.kept.filter (·.entry.key != found.entry.key)).Perm ledger.kept := by
  have hkept : ledger.kept.Nodup := .of_map _ h.keys
  have hfront : (found :: ledger.kept.filter (·.entry.key != found.entry.key)).Nodup := by
    refine List.nodup_cons.mpr ⟨fun hmem => ?_, hkept.filter _⟩
    simpa using (List.mem_filter.mp hmem).2
  refine (List.perm_ext_iff_of_nodup hfront hkept).mpr fun owned => ?_
  rw [List.mem_cons, List.mem_filter]
  constructor
  · rintro (rfl | ⟨hmem, -⟩)
    exacts [hfound, hmem]
  · intro hmem
    by_cases hkey : owned.entry.key = found.entry.key
    · exact .inl (List.inj_on_of_nodup_map h.keys hmem hfound hkey)
    · exact .inr ⟨hmem, by simpa using hkey⟩

theorem Orderly.promote (h : ledger.Orderly) {found : Owned} (hfound : found ∈ ledger.kept) :
    Orderly { ledger with
      kept := found :: ledger.kept.filter (·.entry.key != found.entry.key) } where
  room := h.room
  keys := ((h.promote_perm hfound).map _).nodup_iff.mpr h.keys
  size := by
    have hlength := (h.promote_perm hfound).length_eq
    exact Nat.le_trans (Nat.le_of_eq hlength) h.size

theorem dropLast_eq_take (h : ledger.kept.length ≤ ledger.room) (new : Owned) :
    (if (new :: ledger.kept).length ≤ ledger.room then new :: ledger.kept
      else (new :: ledger.kept).dropLast) = (new :: ledger.kept).take ledger.room := by
  split
  case isTrue hroom => exact (List.take_of_length_le hroom).symm
  case isFalse hfull =>
    rw [List.length_cons] at hfull
    rw [List.dropLast_eq_take, List.length_cons]
    congr
    omega

theorem Orderly.admit (h : ledger.Orderly) {new : Owned} (compiled : Nat)
    (hnew : new.entry.key ∉ ledger.kept.map (·.entry.key)) :
    Orderly ⟨ledger.room, (new :: ledger.kept).take ledger.room, compiled⟩ where
  room := h.room
  keys := ((List.take_sublist _ _).map _).nodup (List.nodup_cons.mpr ⟨hnew, h.keys⟩)
  size := List.length_take_le _ _

theorem Orderly.invalidate (h : ledger.Orderly) (playlist : Int) :
    (ledger.invalidate playlist).Orderly where
  room := h.room
  keys := (List.filter_sublist.map _).nodup h.keys
  size := Nat.le_trans (List.length_filter_le _ _) h.size

theorem Orderly.clear (h : ledger.Orderly) : ledger.clear.Orderly :=
  ⟨h.room, List.nodup_nil, Nat.zero_le _⟩

end Ledger

namespace Cache

variable {cache : Cache} {ledger : Ledger}

theorem Represents.find? (h : cache.Represents ledger) (key : Digest) :
    cache.find? key = (ledger.kept.find? (·.entry.key == key)).map (·.entry) := by
  rw [Cache.find?, h.entries, List.find?_map]
  rfl

theorem Represents.keys_entries (h : cache.Represents ledger) :
    cache.entries.map (·.key) = ledger.kept.map (·.entry.key) := by
  rw [h.entries, List.map_map]
  rfl

theorem Represents.promote (h : cache.Represents ledger) (horderly : ledger.Orderly)
    {found : Owned} (hfound : found ∈ ledger.kept) : (cache.push found.entry).Represents
      { ledger with kept := found :: ledger.kept.filter (·.entry.key != found.entry.key) } where
  capacity := h.capacity
  compiled := h.compiled
  entries := by
    rw [push, h.entries, List.filter_map]
    rfl
  indexes playlist key := by
    refine (h.indexes playlist key).trans (exists_congr fun owned => and_congr_left' ?_)
    exact (horderly.promote_perm hfound).mem_iff.symm
  tidy := ⟨h.tidy.playlists, h.tidy.nonempty, h.tidy.keys⟩

theorem push_of_new {entry : Entry} (h : entry.key ∉ cache.entries.map (·.key)) :
    (cache.push entry).entries = entry :: cache.entries := by
  refine congrArg _ (List.filter_eq_self.mpr fun other hother => ?_)
  simpa using fun hkey : other.key = entry.key => h (hkey ▸ List.mem_map_of_mem hother)

theorem Represents.indexes_key (h : cache.Represents ledger) (horderly : ledger.Orderly)
    {owned : Owned} (howned : owned ∈ ledger.kept) {playlist : Int} :
    cache.Indexes playlist owned.entry.key ↔ owned.owner = playlist := by
  rw [h.indexes]
  constructor
  · rintro ⟨other, hother, rfl, hkey⟩
    rw [List.inj_on_of_nodup_map horderly.keys hother howned hkey]
  · exact fun howner => ⟨owned, howned, howner, rfl⟩

/-- A new entry comes to the front, and what is over the room leaves, with its keys. -/
theorem Represents.admit (h : cache.Represents ledger) (horderly : ledger.Orderly)
    (new : Owned) (hnew : new.entry.key ∉ ledger.kept.map (·.entry.key)) :
    Represents { ((cache.push new.entry).evict).note new.owner new.entry.key with
        compiled := cache.compiled + 1 }
      ⟨ledger.room, (new :: ledger.kept).take ledger.room, ledger.compiled + 1⟩ := by
  have hkeys : ((new :: ledger.kept).map (·.entry.key)).Nodup :=
    List.nodup_cons.mpr ⟨hnew, horderly.keys⟩
  have hpush : (cache.push new.entry).entries = (new :: ledger.kept).map (·.entry) := by
    rw [push_of_new (h.keys_entries ▸ hnew), h.entries, List.map_cons]
  have hleft := without_evict (cache.push new.entry)
  rw [hpush, show (cache.push new.entry).capacity = ledger.room from h.capacity] at hleft
  have hfront : new ∈ (new :: ledger.kept).take ledger.room := by
    rw [← Nat.succ_pred_eq_of_pos horderly.room, List.take_succ_cons]
    exact List.mem_cons_self
  constructor
  case capacity => exact ((note_capacity _ _ _).trans hleft.capacity).trans h.capacity
  case compiled => exact congrArg (· + 1) h.compiled
  case entries =>
    have hentries : (((new :: ledger.kept).map (·.entry)).map (·.key)).Nodup := by
      rwa [List.map_map]
    have hkept := hleft.entries
    rw [hpush, filter_keys_drop hentries, ← List.map_take] at hkept
    exact (note_entries _ _ _).trans hkept
  case indexes =>
    intro playlist key
    refine (indexes_note.trans (or_congr_left (hleft.indexes playlist key))).trans ?_
    rw [show (cache.push new.entry).Indexes playlist key ↔ _ from h.indexes playlist key,
      ← List.map_drop, List.map_map]
    constructor
    · rintro (⟨⟨owned, howned, rfl, rfl⟩, hstays⟩ | ⟨rfl, rfl⟩)
      · exact ⟨owned, (mem_take_iff hkeys).mpr ⟨List.mem_cons_of_mem _ howned, hstays⟩, rfl, rfl⟩
      · exact ⟨new, hfront, rfl, rfl⟩
    · rintro ⟨owned, howned, rfl, rfl⟩
      obtain ⟨howned, hstays⟩ := (mem_take_iff hkeys).mp howned
      rcases List.mem_cons.mp howned with rfl | hkept
      · exact .inr ⟨rfl, rfl⟩
      · exact .inl ⟨⟨owned, hkept, rfl, rfl⟩, hstays⟩
  case tidy =>
    have hfiled : (cache.push new.entry).Tidy := ⟨h.tidy.playlists, h.tidy.nonempty, h.tidy.keys⟩
    have hnoted := (hleft.tidy hfiled).note new.owner new.entry.key
    exact ⟨hnoted.playlists, hnoted.nonempty, hnoted.keys⟩

/-- With a playlist its keys leave, and they are the keys of what it owns. -/
theorem Represents.invalidate (h : cache.Represents ledger) (horderly : ledger.Orderly)
    (playlist : Int) : (cache.invalidate playlist).Represents (ledger.invalidate playlist) := by
  unfold Cache.invalidate
  split
  case h_1 hnone =>
    have hothers : ledger.kept.filter (·.owner != playlist) = ledger.kept := by
      refine List.filter_eq_self.mpr fun owned howned => ?_
      obtain ⟨keys, hkeys, -⟩ := (h.indexes owned.owner _).mpr ⟨owned, howned, rfl, rfl⟩
      simpa using List.find?_eq_none.mp hnone _ hkeys
    rw [Ledger.invalidate, hothers]
    exact h
  case h_2 other keys hsome =>
    obtain rfl : other = playlist := by simpa using List.find?_some hsome
    have hlisted := List.mem_of_find?_eq_some hsome
    have hkeys {owned : Owned} (howned : owned ∈ ledger.kept) :
        owned.entry.key ∈ keys ↔ owned.owner = other := by
      rw [h.tidy.mem_keys_iff hlisted, h.indexes_key horderly howned]
    have hleft := without_foldl keys { cache with index := cache.index.filter (·.1 != other) }
    constructor
    case capacity => exact hleft.capacity.trans h.capacity
    case compiled => exact hleft.compiled.trans h.compiled
    case entries =>
      rw [hleft.entries, Ledger.invalidate, h.entries, List.filter_map]
      refine congrArg _ (List.filter_congr fun owned howned => ?_)
      rw [Bool.eq_iff_iff]
      simpa using not_congr (hkeys howned)
    case indexes =>
      intro playlist key
      rw [hleft.indexes, indexes_disown, h.indexes]
      constructor
      · rintro ⟨⟨⟨owned, howned, rfl, rfl⟩, hother⟩, -⟩
        exact ⟨owned, List.mem_filter.mpr ⟨howned, by simpa using hother⟩, rfl, rfl⟩
      · rintro ⟨owned, hfiltered, rfl, rfl⟩
        obtain ⟨howned, hother⟩ := List.mem_filter.mp hfiltered
        have hother : owned.owner ≠ other := by simpa using hother
        exact ⟨⟨⟨owned, howned, rfl, rfl⟩, hother⟩, fun hkey => hother ((hkeys howned).mp hkey)⟩
    case tidy =>
      refine hleft.tidy ⟨(List.filter_sublist.map _).nodup h.tidy.playlists, ?_, ?_⟩
      · exact fun noted hnoted => h.tidy.nonempty noted (List.mem_of_mem_filter hnoted)
      · exact fun noted hnoted => h.tidy.keys noted (List.mem_of_mem_filter hnoted)

theorem Represents.clear (h : cache.Represents ledger) : cache.clear.Represents ledger.clear where
  capacity := h.capacity
  compiled := h.compiled
  entries := rfl
  indexes playlist key := by
    constructor
    · rintro ⟨_, hnil, -⟩
      exact absurd hnil List.not_mem_nil
    · rintro ⟨_, hnil, -⟩
      exact absurd hnil List.not_mem_nil
  tidy := ⟨List.nodup_nil, nofun, nofun⟩

theorem Represents.owner_unique (h : cache.Represents ledger) (horderly : ledger.Orderly)
    {playlist other : Int} {key : Digest} (hplaylist : cache.Indexes playlist key)
    (hother : cache.Indexes other key) : playlist = other := by
  obtain ⟨owned, howned, rfl, rfl⟩ := (h.indexes playlist key).mp hplaylist
  exact (h.indexes_key horderly howned).mp hother

theorem Represents.getOrCompile (h : cache.Represents ledger) (horderly : ledger.Orderly)
    (playlist user : Int) (groups : List GroupRecord) :
    (cache.getOrCompile playlist user groups).1 = (ledger.getOrCompile playlist user groups).1 ∧
      (cache.getOrCompile playlist user groups).2.Represents
        (ledger.getOrCompile playlist user groups).2 ∧
      (ledger.getOrCompile playlist user groups).2.Orderly := by
  unfold Cache.getOrCompile Ledger.getOrCompile
  dsimp only
  rw [h.find?]
  cases hfind : ledger.kept.find? (·.entry.key == Content.key user groups) with
  | some found =>
    have hfound := List.mem_of_find?_eq_some hfind
    have hkey : found.entry.key = Content.key user groups := by
      simpa using List.find?_some hfind
    rw [← hkey]
    exact ⟨rfl, h.promote horderly hfound, horderly.promote hfound⟩
  | none =>
    have hnew : Content.key user groups ∉ ledger.kept.map (·.entry.key) := by
      simpa using hfind
    cases GroupRecord.compileStrict user groups with
    | error faults => exact ⟨rfl, h, horderly⟩
    | ok expression =>
      let new : Owned := ⟨playlist, Content.key user groups, cache.compiled, expression⟩
      have hadmit := h.admit horderly new hnew
      dsimp only [Option.map_none]
      rw [← h.compiled] at hadmit ⊢
      rw [Ledger.dropLast_eq_take horderly.size new]
      exact ⟨rfl, hadmit, horderly.admit _ hnew⟩

end Cache

inductive CacheCall where
  | getOrCompile (playlist user : Int) (groups : List GroupRecord)
  | invalidate (playlist : Int)
  | clear

namespace CacheCall

abbrev Answer : Type := Option (Except (List RuleFault) Entry)

def onCache (call : CacheCall) (cache : Cache) : Answer × Cache :=
  match call with
  | getOrCompile playlist user groups =>
    let (answer, cache) := cache.getOrCompile playlist user groups
    (some answer, cache)
  | invalidate playlist => (none, cache.invalidate playlist)
  | clear => (none, cache.clear)

def onLedger (call : CacheCall) (ledger : Ledger) : Answer × Ledger :=
  match call with
  | getOrCompile playlist user groups =>
    let (answer, ledger) := ledger.getOrCompile playlist user groups
    (some answer, ledger)
  | invalidate playlist => (none, ledger.invalidate playlist)
  | clear => (none, ledger.clear)

def run {State : Type} (step : CacheCall → State → Answer × State) :
    List CacheCall → State → List Answer × State
  | [], state => ([], state)
  | call :: rest, state =>
    let (answer, next) := step call state
    let (answers, last) := run step rest next
    (answer :: answers, last)

theorem onLedger_room (call : CacheCall) (ledger : Ledger) :
    (call.onLedger ledger).2.room = ledger.room := by
  cases call with
  | getOrCompile playlist user groups =>
    simp only [onLedger, Ledger.getOrCompile]
    repeat' split
    all_goals rfl
  | invalidate playlist => rfl
  | clear => rfl

theorem run_onLedger_room (calls : List CacheCall) (ledger : Ledger) :
    (run onLedger calls ledger).2.room = ledger.room := by
  induction calls generalizing ledger with
  | nil => rfl
  | cons call rest ih => exact (ih _).trans (onLedger_room call ledger)

/-- A call is answered alike, and leaves a cache that stands for the list it leaves. -/
theorem step_represents (call : CacheCall) {cache : Cache} {ledger : Ledger}
    (h : cache.Represents ledger) (horderly : ledger.Orderly) :
    (call.onCache cache).1 = (call.onLedger ledger).1 ∧
      (call.onCache cache).2.Represents (call.onLedger ledger).2 ∧
      (call.onLedger ledger).2.Orderly := by
  cases call with
  | getOrCompile playlist user groups =>
    obtain ⟨hanswer, hnext, horderly⟩ := h.getOrCompile horderly playlist user groups
    exact ⟨congrArg some hanswer, hnext, horderly⟩
  | invalidate playlist =>
    exact ⟨rfl, h.invalidate horderly playlist, horderly.invalidate playlist⟩
  | clear => exact ⟨rfl, h.clear, horderly.clear⟩

theorem run_represents (calls : List CacheCall) {cache : Cache} {ledger : Ledger}
    (h : cache.Represents ledger) (horderly : ledger.Orderly) :
    (run onCache calls cache).1 = (run onLedger calls ledger).1 ∧
      (run onCache calls cache).2.Represents (run onLedger calls ledger).2 ∧
      (run onLedger calls ledger).2.Orderly := by
  induction calls generalizing cache ledger with
  | nil => exact ⟨rfl, h, horderly⟩
  | cons call rest ih =>
    obtain ⟨hanswer, hnext, hnextOrderly⟩ := call.step_represents h horderly
    obtain ⟨hanswers, hlast⟩ := ih hnext hnextOrderly
    refine ⟨?_, hlast⟩
    simp only [run]
    rw [hanswer, hanswers]

theorem represents_empty (capacity : Nat) :
    (Cache.empty capacity).Represents (.empty (max capacity 1)) where
  capacity := rfl
  compiled := rfl
  entries := rfl
  indexes playlist key := by simp [Cache.Indexes, Cache.empty, Ledger.empty]
  tidy := ⟨List.nodup_nil, nofun, nofun⟩

/-- Whatever it is called for, a cache answers and is left as a list of owned entries, the latest
used first, that holds no content twice and no more than its capacity, or one. Its index holds the
keys of the entries, each for its one owner, and no empty list of keys. -/
theorem run_eq_recency_list (capacity : Nat) (calls : List CacheCall) :
    let (answers, cache) := run onCache calls (.empty capacity)
    let (listAnswers, ledger) := run onLedger calls (.empty (max capacity 1))
    answers = listAnswers ∧ cache.Represents ledger ∧
      (ledger.kept.map (·.entry.key)).Nodup ∧ ledger.kept.length ≤ max capacity 1 ∧
      ∀ playlist other key, cache.Indexes playlist key → cache.Indexes other key →
        playlist = other := by
  have horderly : (Ledger.empty (max capacity 1)).Orderly :=
    ⟨Nat.le_max_right _ _, List.nodup_nil, Nat.zero_le _⟩
  obtain ⟨hanswers, hrepresents, hlast⟩ := run_represents calls (represents_empty capacity) horderly
  have hsize := hlast.size
  rw [run_onLedger_room] at hsize
  exact ⟨hanswers, hrepresents, hlast.keys, hsize, fun _ _ _ => hrepresents.owner_unique hlast⟩

end CacheCall

end Setlist
