import Setlist.Catalogue.Action

/-! # Running actions

An action takes a catalogue to a result and a catalogue. What each part of an action does to
both is said once here.
-/

namespace Setlist

namespace Action

variable {α β : Type}

@[simp] theorem pure_run (a : α) (c : Catalogue) : (pure a : Action α) c = (.ok a, c) := rfl

@[simp] theorem throw_run (e : CatalogueError) (c : Catalogue) :
    (throw e : Action α) c = (.error e, c) := rfl

@[simp] theorem get_run (c : Catalogue) : (get : Action Catalogue) c = (.ok c, c) := rfl

@[simp] theorem set_run (new c : Catalogue) : (set new : Action PUnit) c = (.ok ⟨⟩, new) := rfl

@[simp] theorem lift_run (x : Except CatalogueError α) (c : Catalogue) :
    (liftM x : Action α) c = (x, c) := rfl

theorem bind_run (x : Action α) (f : α → Action β) (c : Catalogue) : (x >>= f) c =
    match x c with
    | (.ok a, c') => f a c'
    | (.error e, c') => (.error e, c') := by
  change (match x c with | (a, c') => ExceptT.bindCont f a c') = _
  obtain ⟨_ | _, _⟩ := x c <;> rfl

@[simp] theorem get_bind_run (f : Catalogue → Action β) (c : Catalogue) :
    (get >>= f) c = f c c := rfl

@[simp] theorem set_bind_run (new : Catalogue) (f : PUnit → Action β) (c : Catalogue) :
    (set new >>= f) c = f ⟨⟩ new := rfl

@[simp] theorem lift_bind_run (x : Except CatalogueError α) (f : α → Action β) (c : Catalogue) :
    ((liftM x : Action α) >>= f) c =
      match x with
      | .ok a => f a c
      | .error e => (.error e, c) := by
  cases x <;> rfl

@[simp] theorem failWhen_bind_run (test : Bool) (e : CatalogueError) (f : Unit → Action β)
    (c : Catalogue) :
    (failWhen test e >>= f) c = if test then (.error e, c) else f () c := by
  cases test <;> rfl

@[simp] theorem stamp_bind_run (now : Instant) (entity : Entity) (dating : Dating)
    (f : String → Action β) (c : Catalogue) :
    (stamp now entity dating >>= f) c =
      match Timestamp.stamp? now with
      | some time => f time c
      | none => (.error (.database (.undated entity dating)), c) := by
  rw [stamp]
  cases Timestamp.stamp? now <;> rfl

@[simp] theorem readBack_run_snd (read : Catalogue → Option α) (entity : Entity) (id : String)
    (c : Catalogue) : (readBack read entity id c).2 = c := by
  simp only [readBack, get_bind_run]
  cases read c <;> rfl

end Action

end Setlist
