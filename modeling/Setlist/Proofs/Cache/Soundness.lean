import Setlist.Proofs.Cache.Content
import Setlist.Proofs.Cache.Index

/-! # What a cache holds is right

Every expression in a cache is what the rules compile to that its key was made of. Entries
come and go in any order, but no operation changes an entry, and keys tell contents apart.
-/

namespace Setlist

/-- Contents that can be written in bytes, and whose digests differ when their bytes do. -/
structure Distinguished (met : Int64 → List GroupRecord → Prop) : Prop where
  fits : ∀ {user groups}, met user groups → GroupRecord.AllFit groups
  digests : ∀ {user groups other others}, met user groups → met other others →
    Content.key user.toInt groups = Content.key other.toInt others →
      Content.bytes user.toInt groups = Content.bytes other.toInt others

/-- The content can be written in bytes, and what was met with its digest has its bytes. -/
structure HasOwnDigest (met : Int64 → List GroupRecord → Prop) (user : Int64)
    (groups : List GroupRecord) : Prop where
  fits : GroupRecord.AllFit groups
  own : ∀ {other others}, met other others →
    Content.key other.toInt others = Content.key user.toInt groups →
      GroupRecord.AllFit others ∧
        Content.bytes other.toInt others = Content.bytes user.toInt groups

theorem Distinguished.hasOwnDigest {met : Int64 → List GroupRecord → Prop}
    (h : Distinguished met) {user : Int64} {groups : List GroupRecord} (hthis : met user groups) :
    HasOwnDigest met user groups where
  fits := h.fits hthis
  own hother hkey := ⟨h.fits hother, h.digests hother hthis hkey⟩

namespace Cache

variable {cache : Cache} {met : Int64 → List GroupRecord → Prop}

def Right (met : Int64 → List GroupRecord → Prop) (entry : Entry) : Prop :=
  ∃ (user : Int64) (groups : List GroupRecord), met user groups ∧
    entry.key = Content.key user.toInt groups ∧
    GroupRecord.compileStrict user.toInt groups = .ok entry.expression

def Sound (met : Int64 → List GroupRecord → Prop) (cache : Cache) : Prop :=
  ∀ entry ∈ cache.entries, Right met entry

theorem key_of_find? {key : Digest} {entry : Entry} (h : cache.find? key = some entry) :
    entry.key = key := by
  simpa using List.find?_some h

theorem Sound.empty (capacity : Nat) : Sound met (empty capacity) := fun _ h => nomatch h

theorem Sound.of_subset {smaller : Cache} (h : cache.Sound met)
    (hsub : smaller.entries ⊆ cache.entries) : smaller.Sound met :=
  fun entry hentry => h entry (hsub hentry)

theorem Without.entries_subset {keys : List Digest} {left : Cache} (h : cache.Without keys left) :
    left.entries ⊆ cache.entries := by
  rw [h.entries]
  exact List.filter_sublist.subset

theorem Sound.push {entry : Entry} (h : cache.Sound met) (hentry : Right met entry) :
    (cache.push entry).Sound met := by
  refine List.forall_mem_cons.mpr ⟨hentry, fun other hother => ?_⟩
  exact h other (List.mem_of_mem_filter hother)

theorem Sound.evict (h : cache.Sound met) : cache.evict.Sound met :=
  h.of_subset (without_evict cache).entries_subset

theorem Sound.note (h : cache.Sound met) (playlist : Int) (key : Digest) :
    (cache.note playlist key).Sound met := by
  apply h.of_subset
  rw [note_entries]
  exact List.Subset.refl _

theorem Sound.invalidate (h : cache.Sound met) (playlist : Int) :
    (cache.invalidate playlist).Sound met := by
  apply h.of_subset
  unfold Cache.invalidate
  split
  case h_1 => exact List.Subset.refl _
  case h_2 keys _ => exact (without_foldl keys _).entries_subset

theorem Sound.clear (cache : Cache) : cache.clear.Sound met := fun _ h => nomatch h

/-- What is found under the key of a content is what the content compiles to. -/
theorem Sound.expression_of_find? (h : cache.Sound met) {user : Int64} {groups : List GroupRecord}
    (hown : HasOwnDigest met user groups) {entry : Entry}
    (hfind : cache.find? (Content.key user.toInt groups) = some entry) :
    GroupRecord.compileStrict user.toInt groups = .ok entry.expression := by
  obtain ⟨other, others, hother, hkey, hcompile⟩ := h entry (List.mem_of_find?_eq_some hfind)
  obtain ⟨hfits, hbytes⟩ := hown.own hother (hkey.symm.trans (key_of_find? hfind))
  obtain ⟨rfl, hagree⟩ := (Content.bytes_eq_iff_agree hfits hown.fits).mp hbytes
  exact hagree.compileStrict_eq_ok hcompile

theorem Sound.after_getOrCompile (h : cache.Sound met) (playlist : Int) {user : Int64}
    {groups : List GroupRecord} (hthis : met user groups) :
    (cache.getOrCompile playlist user.toInt groups).2.Sound met := by
  unfold Cache.getOrCompile
  dsimp only
  split
  case h_1 entry hfind => exact h.push (h entry (List.mem_of_find?_eq_some hfind))
  case h_2 =>
    split
    case h_1 => exact h
    case h_2 e he => exact ((h.push ⟨user, groups, hthis, rfl, he⟩).evict).note playlist _

theorem Sound.getOrCompile (h : cache.Sound met) (playlist : Int) {user : Int64}
    {groups : List GroupRecord} (hown : HasOwnDigest met user groups) :
    (cache.getOrCompile playlist user.toInt groups).1.map (·.expression) =
      GroupRecord.compileStrict user.toInt groups := by
  unfold Cache.getOrCompile
  dsimp only
  split
  case h_1 entry hfind => exact (h.expression_of_find? hown hfind).symm
  case h_2 =>
    split
    case h_1 faults hfaults => exact hfaults.symm
    case h_2 e he => exact he.symm

end Cache

end Setlist
