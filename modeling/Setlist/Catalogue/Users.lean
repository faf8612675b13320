import Setlist.Catalogue.Action

/-! # Users

A user has a name that is not blank. Names may repeat.
-/

namespace Setlist

namespace Users

def get? (c : Catalogue) (id : Int) : Option User := c.user? id

def all (c : Catalogue) : List User :=
  c.users.mergeSort fun a b => ((compare a.name b.name).then (compare a.id b.id)) != .gt

def create (now : Instant) (name : String) : Action User := do
  let name := Text.trim name
  Action.failWhen name.isEmpty (.invalidInput .blankUserName)
  let time ← Action.stamp now .user .created
  let c ← get
  let user : User := ⟨c.userIds + 1, name, time⟩
  set { c with users := c.users ++ [user], userIds := c.userIds + 1 }
  Action.readBack (·.user? user.id) .user (toString user.id)

end Users

end Setlist
