import Setlist.Settings.Basic
import Setlist.Settings.Name
import Setlist.Settings.Toml.Document

/-! # Sources of settings

Settings come from a file and from the environment, which goes first. What neither gives
keeps its standard value.
-/

namespace Setlist

namespace Settings

def variablePrefix : String := "cadence_"

/-- What the variables of an environment give, by the rest of their lowercase names. -/
def ofEnvironment (environment : List (String × String)) : List (String × Given) :=
  environment.filterMap fun (name, value) =>
    let name := Text.fold name
    if name.startsWith variablePrefix then
      some ((name.drop variablePrefix.length).toString, Given.ofText value)
    else none

/-- What is given under a name is given for the value that the name leads to. -/
def addressed (name : String) (given : Given) : String × Given :=
  let (root, isPart) := target (Text.fold name)
  (root, if isPart then .compound else given)

def lookup (givens : List (String × Given)) (name : String) : Option Given :=
  (givens.reverse.find? (·.1 == name)).map (·.2)

def convert {α : Type} (default : α) (read : Given → Option α) : Option Given → Option α
  | some given => read given
  | none => some default

/-- The settings that some values make. -/
def ofGivens? (givens : List (String × Given)) : Option Settings := do
  let count (name : String) (most default : Nat) : Option Nat :=
    convert default (Given.count? most) (lookup givens name)
  return ⟨← convert standard.databaseUrl Given.text? (lookup givens "database_url"),
    ← count "max_connections" (2 ^ 32 - 1) standard.maxConnections,
    ← count "busy_timeout_secs" (2 ^ 64 - 1) standard.busyTimeoutSecs,
    ← count "default_per_page" (2 ^ 32 - 1) standard.defaultPerPage,
    ← count "max_per_page" (2 ^ 32 - 1) standard.maxPerPage,
    ← count "expression_cache_size" (2 ^ 64 - 1) standard.cacheSize⟩

/-- Settings from a file, if there is one, and the environment; none if one cannot be read. -/
def load? (file : Option String) (environment : List (String × String)) : Option Settings := do
  let fromFile ← match file with
    | some text => Toml.read? text
    | none => some []
  ofGivens? ((fromFile ++ ofEnvironment environment).map fun (name, given) => addressed name given)

end Settings

end Setlist
