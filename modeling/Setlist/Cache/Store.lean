import Setlist.Cache.Content

/-! # The expression cache

Compiled playlists are kept by their content, the least recently used one giving way. An
index notes for which playlist each was compiled, so that an edit can drop them.
-/

namespace Setlist

/-- `serial` tells one compilation from another. -/
structure Entry where
  key : Digest
  serial : Nat
  expression : Expression

/-- `entries` are in order of use, the latest first. `index` holds for each playlist the keys
compiled for it, and no empty list. -/
structure Cache where
  capacity : Nat
  entries : List Entry
  index : List (Int × List Digest)
  compiled : Nat

namespace Cache

/-- A cache holds at least one expression. -/
def empty (capacity : Nat) : Cache := ⟨max capacity 1, [], [], 0⟩

def size (cache : Cache) : Nat := cache.entries.length

def find? (cache : Cache) (key : Digest) : Option Entry := cache.entries.find? (·.key == key)

def remove (cache : Cache) (key : Digest) : Cache :=
  { cache with entries := cache.entries.filter (·.key != key) }

def forget (cache : Cache) (key : Digest) : Cache :=
  { cache with
    index := (cache.index.map fun (playlist, keys) => (playlist, keys.filter (· != key))).filter
      (!·.2.isEmpty) }

def note (cache : Cache) (playlist : Int) (key : Digest) : Cache :=
  if cache.index.any (·.1 == playlist) then
    { cache with
      index := cache.index.map fun (other, keys) =>
        (other, if other == playlist ∧ !keys.contains key then key :: keys else keys) }
  else { cache with index := (playlist, [key]) :: cache.index }

def push (cache : Cache) (entry : Entry) : Cache :=
  let rest := cache.entries.filter (·.key != entry.key)
  { cache with entries := entry :: rest }

def evict (cache : Cache) : Cache :=
  (cache.entries.drop cache.capacity).foldl (fun left entry => (left.remove entry.key).forget
    entry.key) cache

/-- The compiled rules of a playlist. Compiled rules found under their content move to the
front; others are compiled and kept, unless they are at fault. -/
def getOrCompile (cache : Cache) (playlist user : Int) (groups : List GroupRecord) :
    Except (List RuleFault) Entry × Cache :=
  let key := Content.key user groups
  match cache.find? key with
  | some entry => (.ok entry, cache.push entry)
  | none =>
    match GroupRecord.compileStrict user groups with
    | .error faults => (.error faults, cache)
    | .ok expression =>
      let entry : Entry := ⟨key, cache.compiled, expression⟩
      let grown := ((cache.push entry).evict).note playlist key
      (.ok entry, { grown with compiled := cache.compiled + 1 })

def invalidate (cache : Cache) (playlist : Int) : Cache :=
  match cache.index.find? (·.1 == playlist) with
  | none => cache
  | some (_, keys) =>
    let left := { cache with index := cache.index.filter (·.1 != playlist) }
    keys.foldl (fun left key => (left.remove key).forget key) left

def clear (cache : Cache) : Cache := { cache with entries := [], index := [] }

end Cache

end Setlist
