import Setlist.Cache.Store
import Mathlib.Data.List.Nodup

/-! # The index of a cache

What the operations do to the entries and to the index, which notes for each playlist the keys
that were compiled for it.
-/

namespace Setlist

namespace Cache

def Indexes (cache : Cache) (playlist : Int) (key : Digest) : Prop :=
  ∃ keys, (playlist, keys) ∈ cache.index ∧ key ∈ keys

/-- Each playlist stands in the index once, with some keys, and each of them once. -/
structure Tidy (cache : Cache) : Prop where
  playlists : (cache.index.map (·.1)).Nodup
  nonempty : ∀ noted ∈ cache.index, noted.2 ≠ []
  keys : ∀ noted ∈ cache.index, noted.2.Nodup

variable {cache : Cache} {playlist other : Int} {key noted : Digest}

theorem Tidy.mem_keys_iff (h : cache.Tidy) {keys : List Digest}
    (hkeys : (playlist, keys) ∈ cache.index) : key ∈ keys ↔ cache.Indexes playlist key := by
  refine ⟨fun hkey => ⟨keys, hkeys, hkey⟩, ?_⟩
  rintro ⟨others, hothers, hkey⟩
  obtain ⟨-, rfl⟩ := Prod.mk.inj (List.inj_on_of_nodup_map h.playlists hothers hkeys rfl)
  exact hkey

theorem indexes_forget : (cache.forget key).Indexes playlist noted ↔
    cache.Indexes playlist noted ∧ noted ≠ key := by
  simp only [Indexes, forget, List.mem_filter, List.mem_map, Prod.exists, Prod.mk.injEq]
  constructor
  · rintro ⟨_, ⟨⟨_, keys, hkeys, rfl, rfl⟩, -⟩, hnoted⟩
    obtain ⟨hmem, hne⟩ := List.mem_filter.mp hnoted
    exact ⟨⟨keys, hkeys, hmem⟩, by simpa using hne⟩
  · rintro ⟨⟨keys, hkeys, hmem⟩, hne⟩
    have hnoted : noted ∈ keys.filter (· != key) := List.mem_filter.mpr ⟨hmem, by simpa using hne⟩
    exact ⟨_, ⟨⟨_, keys, hkeys, rfl, rfl⟩, by simpa using List.ne_nil_of_mem hnoted⟩, hnoted⟩

theorem Tidy.forget (h : cache.Tidy) (key : Digest) : (cache.forget key).Tidy where
  playlists := by
    refine List.Sublist.nodup (List.filter_sublist.map _) ?_
    rw [List.map_map]
    exact h.playlists
  nonempty listed hlisted := by
    simpa using (List.mem_filter.mp hlisted).2
  keys listed hlisted := by
    obtain ⟨other, hother, rfl⟩ := List.mem_map.mp (List.mem_filter.mp hlisted).1
    exact (h.keys other hother).filter _

@[simp] theorem note_entries (cache : Cache) (playlist : Int) (key : Digest) :
    (cache.note playlist key).entries = cache.entries := by
  unfold note
  split <;> rfl

@[simp] theorem note_capacity (cache : Cache) (playlist : Int) (key : Digest) :
    (cache.note playlist key).capacity = cache.capacity := by
  unfold note
  split <;> rfl

theorem indexes_note : (cache.note playlist key).Indexes other noted ↔
    cache.Indexes other noted ∨ other = playlist ∧ noted = key := by
  unfold note
  split
  case isTrue hany =>
    obtain ⟨⟨_, keys⟩, hkeys, hplaylist⟩ := List.any_eq_true.mp hany
    obtain rfl := beq_iff_eq.mp hplaylist
    simp only [Indexes, List.mem_map, Prod.exists, Prod.mk.injEq]
    constructor
    · rintro ⟨_, ⟨_, keys', hkeys', rfl, rfl⟩, hnoted⟩
      split at hnoted
      case isTrue htest =>
        rcases List.mem_cons.mp hnoted with rfl | hmem
        · exact .inr ⟨by simpa using htest.1, rfl⟩
        · exact .inl ⟨keys', hkeys', hmem⟩
      case isFalse => exact .inl ⟨keys', hkeys', hnoted⟩
    · rintro (⟨keys', hkeys', hmem⟩ | ⟨rfl, rfl⟩)
      · refine ⟨_, ⟨other, keys', hkeys', rfl, rfl⟩, ?_⟩
        split
        exacts [List.mem_cons_of_mem _ hmem, hmem]
      · refine ⟨_, ⟨_, keys, hkeys, rfl, rfl⟩, ?_⟩
        split
        case isTrue => exact List.mem_cons_self
        case isFalse htest => simpa using htest
  case isFalse =>
    simp only [Indexes, List.mem_cons, Prod.mk.injEq]
    constructor
    · rintro ⟨keys, ⟨rfl, rfl⟩ | hkeys, hmem⟩
      · exact .inr ⟨rfl, List.mem_singleton.mp hmem⟩
      · exact .inl ⟨keys, hkeys, hmem⟩
    · rintro (⟨keys, hkeys, hmem⟩ | ⟨rfl, rfl⟩)
      · exact ⟨keys, .inr hkeys, hmem⟩
      · exact ⟨[noted], .inl ⟨rfl, rfl⟩, List.mem_singleton_self _⟩

theorem Tidy.note (h : cache.Tidy) (playlist : Int) (key : Digest) :
    (cache.note playlist key).Tidy := by
  unfold Cache.note
  split
  case isTrue hany =>
    constructor
    case playlists =>
      rw [List.map_map]
      exact h.playlists
    case nonempty =>
      intro listed hlisted
      obtain ⟨other, hother, rfl⟩ := List.mem_map.mp hlisted
      dsimp only
      split
      exacts [List.cons_ne_nil _ _, h.nonempty other hother]
    case keys =>
      intro listed hlisted
      obtain ⟨other, hother, rfl⟩ := List.mem_map.mp hlisted
      dsimp only
      split
      case isTrue htest => exact List.nodup_cons.mpr ⟨by simpa using htest.2, h.keys other hother⟩
      case isFalse => exact h.keys other hother
  case isFalse hnone =>
    constructor
    case playlists =>
      refine List.nodup_cons.mpr ⟨fun hmem => hnone ?_, h.playlists⟩
      obtain ⟨listed, hlisted, hplaylist⟩ := List.mem_map.mp hmem
      exact List.any_eq_true.mpr ⟨listed, hlisted, by simpa using hplaylist⟩
    case nonempty => exact List.forall_mem_cons.mpr ⟨List.cons_ne_nil _ _, h.nonempty⟩
    case keys => exact List.forall_mem_cons.mpr ⟨List.nodup_singleton _, h.keys⟩

theorem indexes_disown :
    Indexes { cache with index := cache.index.filter (·.1 != playlist) } other noted ↔
      cache.Indexes other noted ∧ other ≠ playlist := by
  constructor
  · rintro ⟨keys, hfiltered, hmem⟩
    obtain ⟨hkeys, hother⟩ := List.mem_filter.mp hfiltered
    exact ⟨⟨keys, hkeys, hmem⟩, by simpa using hother⟩
  · rintro ⟨⟨keys, hkeys, hmem⟩, hother⟩
    exact ⟨keys, List.mem_filter.mpr ⟨hkeys, by simpa using hother⟩, hmem⟩

/-- Taking away keys, one after another, leaves what has other keys as it is. -/
structure Without (cache : Cache) (keys : List Digest) (left : Cache) : Prop where
  capacity : left.capacity = cache.capacity
  compiled : left.compiled = cache.compiled
  entries : left.entries = cache.entries.filter fun entry => entry.key ∉ keys
  indexes : ∀ playlist key, left.Indexes playlist key ↔ cache.Indexes playlist key ∧ key ∉ keys
  tidy : cache.Tidy → left.Tidy

theorem without_foldl (keys : List Digest) (cache : Cache) : cache.Without keys
    (keys.foldl (fun left key => (left.remove key).forget key) cache) := by
  induction keys generalizing cache with
  | nil => exact ⟨rfl, rfl, by simp, by simp, id⟩
  | cons key rest ih =>
    have hrest := ih ((cache.remove key).forget key)
    constructor
    case capacity => exact hrest.capacity
    case compiled => exact hrest.compiled
    case entries =>
      rw [List.foldl_cons, hrest.entries]
      change (cache.entries.filter (·.key != key)).filter _ = _
      rw [List.filter_filter]
      refine List.filter_congr fun entry _ => ?_
      rw [Bool.eq_iff_iff]
      simp [and_comm]
    case indexes =>
      intro playlist noted
      rw [List.foldl_cons, hrest.indexes, indexes_forget, List.mem_cons, not_or, and_assoc]
      rfl
    case tidy =>
      intro h
      have hremove : (cache.remove key).Tidy := ⟨h.playlists, h.nonempty, h.keys⟩
      exact hrest.tidy (hremove.forget key)

theorem without_evict (cache : Cache) :
    cache.Without ((cache.entries.drop cache.capacity).map (·.key)) cache.evict := by
  have hfold := without_foldl ((cache.entries.drop cache.capacity).map (·.key)) cache
  rwa [List.foldl_map] at hfold

end Cache

end Setlist
