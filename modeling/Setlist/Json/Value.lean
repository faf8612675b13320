import Setlist.Number.Numeral

/-! # JSON values

A value keeps its object members as they were written. The canonical form orders them by
key and keeps the last of several with one key.
-/

namespace Setlist

/-- A number is an integer of the two 64-bit ranges, or else a finite binary number. -/
inductive JsonNumber
  | integer (value : Int)
  | real (value : Binary64)
  deriving DecidableEq, Repr

namespace JsonNumber

def minInteger : Int := -2 ^ 63

def maxInteger : Int := 2 ^ 64 - 1

def toBinary64 : JsonNumber → Binary64
  | integer value => .ofInt value
  | real value => value

end JsonNumber

inductive Json
  | null
  | bool (value : Bool)
  | number (value : JsonNumber)
  | string (value : String)
  | array (items : List Json)
  | object (members : List (String × Json))
  deriving Repr, Inhabited

namespace Json

/-- Places a member among members with ascending keys; a present key takes the new value. -/
def putMember (key : String) (value : Json) : List (String × Json) → List (String × Json)
  | [] => [(key, value)]
  | (other, old) :: rest =>
    match compare key other with
    | .lt => (key, value) :: (other, old) :: rest
    | .eq => (key, value) :: rest
    | .gt => (other, old) :: putMember key value rest

/-- The last member of several with one key is kept. -/
def ofMembers (members : List (String × Json)) : List (String × Json) :=
  members.foldl (fun done member => putMember member.1 member.2 done) []

mutual

/-- Orders the members of every object. -/
def canonical : Json → Json
  | null => null
  | bool value => bool value
  | number value => number value
  | string value => string value
  | array items => array (canonicalItems items)
  | object members => object (ofMembers (canonicalMembers members))

def canonicalItems : List Json → List Json
  | [] => []
  | item :: rest => canonical item :: canonicalItems rest

def canonicalMembers : List (String × Json) → List (String × Json)
  | [] => []
  | (key, value) :: rest => (key, canonical value) :: canonicalMembers rest

end

/-- The last value written for a key. -/
def get? (json : Json) (key : String) : Option Json :=
  match json with
  | object members => (members.reverse.find? (·.1 == key)).map (·.2)
  | _ => none

end Json

end Setlist
