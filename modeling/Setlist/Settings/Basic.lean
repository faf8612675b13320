import Setlist.Catalogue.Error
import Setlist.Json.Reader

/-! # Settings

What a session needs to know before it starts, with a value of its own for each setting that
is not given.
-/

namespace Setlist

structure Settings where
  databaseUrl : String
  maxConnections : Nat
  busyTimeoutSecs : Nat
  defaultPerPage : Nat
  maxPerPage : Nat
  cacheSize : Nat
  deriving DecidableEq, Repr

namespace Settings

def standard : Settings := ⟨"sqlite://./data/cadence.db", 5, 30, 50, 500, 128⟩

/-- Settings for a database of one connection that is kept nowhere else. -/
def inMemory : Settings :=
  { standard with databaseUrl := "sqlite::memory:", maxConnections := 1 }

def fault? (s : Settings) : Option SettingsFault :=
  if (Text.trim s.databaseUrl).isEmpty then some .noDatabase
  else if s.maxConnections = 0 then some .noConnections
  else if s.defaultPerPage = 0 ∨ s.maxPerPage = 0 then some .noPageSize
  else if s.maxPerPage < s.defaultPerPage then some (.pageSizes s.defaultPerPage s.maxPerPage)
  else if s.cacheSize = 0 then some .noCache
  else none

def validated (s : Settings) : Except CatalogueError Settings :=
  match s.fault? with
  | some fault => .error (.settings fault)
  | none => .ok s

open Json

def slots : List Slot :=
  [⟨"database_url", none, true⟩, ⟨"max_connections", none, true⟩,
    ⟨"busy_timeout_secs", none, true⟩, ⟨"default_per_page", none, true⟩,
    ⟨"max_per_page", none, true⟩, ⟨"expression_cache_size", none, true⟩]

/-- Reads settings over others, which stand in for those not given. -/
def ofJson? (base : Settings) (json : Json) : Option Settings := do
  let [url, connections, timeout, perPage, most, cache] ← gather slots json | none
  return ⟨← defaulted base.databaseUrl string? url,
    ← defaulted base.maxConnections nat32? connections,
    ← defaulted base.busyTimeoutSecs nat64? timeout,
    ← defaulted base.defaultPerPage nat32? perPage,
    ← defaulted base.maxPerPage nat32? most,
    ← defaulted base.cacheSize nat64? cache⟩

def toJson (s : Settings) : Json :=
  .object [("database_url", .string s.databaseUrl), ("max_connections", ofNat s.maxConnections),
    ("busy_timeout_secs", ofNat s.busyTimeoutSecs), ("default_per_page", ofNat s.defaultPerPage),
    ("max_per_page", ofNat s.maxPerPage), ("expression_cache_size", ofNat s.cacheSize)]

def format : Format Settings := ⟨.flat slots, ofJson? standard, toJson⟩

end Settings

end Setlist
