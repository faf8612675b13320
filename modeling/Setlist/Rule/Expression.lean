import Setlist.Rule.Compile

/-! # Compiled playlists

A playlist matches a song when all predicates of some nonempty group do. Compiling a list of
groups reports every faulty rule; a group with a fault is left empty and matches nothing.
-/

namespace Setlist

/-- `groups` are alternatives, the predicates of a group conditions that must all hold. -/
structure Expression where
  user : Int
  groups : List (List Predicate)
  joins : Joins
  deriving DecidableEq, Repr

namespace Expression

def ofGroups (user : Int) (groups : List (List Predicate)) : Expression :=
  ⟨user, groups, .unions (groups.flatten.map (·.joins))⟩

/-- No song can match, so none need be looked at. -/
def matchesNothing (e : Expression) : Bool := e.groups.all (·.isEmpty)

def predicateCount (e : Expression) : Nat := (e.groups.map (·.length)).foldr (· + ·) 0

end Expression

/-- A faulty rule, with its place among the groups and its stored id. -/
structure RuleFault where
  group : Nat
  rule : Nat
  ruleId : Option Int
  cause : RuleError

namespace RuleFault

def message (fault : RuleFault) : String :=
  let id := match fault.ruleId with
    | some id => " (id " ++ toString id ++ ")"
    | none => ""
  "group " ++ toString fault.group ++ ", rule " ++ toString fault.rule ++ id ++ ": " ++
    fault.cause.message

/-- All faults in one line, their number first. -/
def summary (faults : List RuleFault) : String :=
  toString faults.length ++ " invalid rule(s)" ++
    String.join (faults.map fun fault => "; " ++ fault.message)

end RuleFault

namespace GroupRecord

/-- The predicates of a group, or none at all if one of its rules is at fault. -/
def predicates (group : GroupRecord) : List Predicate :=
  match group.rules.mapM RuleRecord.compile with
  | .ok predicates => predicates
  | .error _ => []

def faults (group : GroupRecord) (place : Nat) : List RuleFault :=
  group.rules.zipIdx.filterMap fun (record, rule) =>
    match record.compile with
    | .ok _ => none
    | .error cause => some ⟨place, rule, record.id, cause⟩

def allFaults (groups : List GroupRecord) : List RuleFault :=
  groups.zipIdx.flatMap fun (group, place) => group.faults place

/-- Compiles every group, and collects the faults on the way. -/
def compile (user : Int) (groups : List GroupRecord) : Expression × List RuleFault :=
  (.ofGroups user (groups.map predicates), allFaults groups)

/-- The compiled groups, if there is no fault in any. -/
def compileStrict (user : Int) (groups : List GroupRecord) : Except (List RuleFault) Expression :=
  match compile user groups with
  | (expression, []) => .ok expression
  | (_, faults) => .error faults

end GroupRecord

end Setlist
