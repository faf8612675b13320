import Setlist.Calendar.Stored
import Setlist.Catalogue.Error
import Setlist.Catalogue.Tables

/-! # Actions on the catalogue

An action reads and changes the tables and may fail. A failure does not undo what was done
before it, so each action checks everything before it writes.
-/

namespace Setlist

abbrev Action := ExceptT CatalogueError (StateM Catalogue)

namespace Action

def failWhen (test : Bool) (error : CatalogueError) : Action Unit :=
  if test then throw error else pure ()

/-- The time to date a row by, if the database can count it. -/
def stamp (now : Instant) (entity : Entity) (dating : Dating) : Action String :=
  match Timestamp.stamp? now with
  | some time => pure time
  | none => throw (.database (.undated entity dating))

/-- The result of an action that wrote it, read back from the tables. -/
def readBack {α : Type} (read : Catalogue → Option α) (entity : Entity) (id : String) :
    Action α := do
  match read (← get) with
  | some value => return value
  | none => throw (.notFound entity id)

end Action

end Setlist
