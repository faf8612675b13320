import Mathlib.Data.List.Find
import Setlist.Proofs.Json.Formats

/-! # Records in other words

A record may be given under the other names of its fields, and with keys that it does not know.
The same is read of it then: a field finds what stands under any of its names, and no field finds
what stands under an unknown key.
-/

namespace Setlist

namespace Json

def SameField (slots : List Slot) (key other : String) : Prop :=
  ∀ slot ∈ slots, slot.isNamed other = slot.isNamed key

def IsUnknown (slots : List Slot) (key : String) : Prop :=
  ∀ slot ∈ slots, slot.isNamed key = false

instance (slots : List Slot) (key other : String) : Decidable (SameField slots key other) :=
  inferInstanceAs (Decidable (∀ slot ∈ slots, _))

instance (slots : List Slot) (key : String) : Decidable (IsUnknown slots key) :=
  inferInstanceAs (Decidable (∀ slot ∈ slots, _))

/-- The values given under the names of a field. -/
def named (slot : Slot) (members : List (String × Json)) : List Json :=
  (members.filter (slot.isNamed ·.1)).map (·.2)

theorem named_cons (slot : Slot) (key : String) (value : Json) (rest : List (String × Json)) :
    named slot ((key, value) :: rest) =
      if slot.isNamed key then value :: named slot rest else named slot rest := by
  rw [named, List.filter_cons]
  split <;> rfl

/-- The only one of the values, or that there is none. -/
def only : List Json → Option (Option Json)
  | [] => some none
  | [value] => some (some value)
  | _ => none

theorem given_eq (members : List (String × Json)) (slot : Slot) :
    given members slot = only (named slot members) := by
  unfold given named
  generalize members.filter (slot.isNamed ·.1) = found
  rcases found with _ | ⟨_, _ | ⟨_, _⟩⟩ <;> rfl

theorem gather_eq_of_named {slots : List Slot} {members others : List (String × Json)}
    (h : ∀ slot ∈ slots, named slot members = named slot others) :
    gather slots (.object members) = gather slots (.object others) := by
  induction slots with
  | nil => rfl
  | cons slot rest ih =>
    have hslot := h slot List.mem_cons_self
    have hrest := ih fun other hother => h other (List.mem_cons_of_mem _ hother)
    simp only [gather, List.mapM_cons] at hrest ⊢
    rw [given_eq, given_eq, hslot, hrest]

namespace Shape

variable {fields : List (Slot × Shape)} {key other : String}

theorem member?_sameField (h : SameField (fields.map (·.1)) key other) :
    (record fields).member? other = (record fields).member? key :=
  congrArg (Option.map _)
    (List.find?_congr fun field hfield => h field.1 (List.mem_map_of_mem hfield))

theorem member?_unknown (h : IsUnknown (fields.map (·.1)) key) :
    (record fields).member? key = none := by
  have hnone : fields.find? (·.1.isNamed key) = none := by
    refine List.find?_eq_none.mpr fun field hfield => ?_
    rw [h field.1 (List.mem_map_of_mem hfield)]
    exact Bool.false_ne_true
  rw [member?, hnone, Option.map_none]

end Shape

namespace Outline

/-- Members as a text may give them: a key is kept or is another name of its field, and members
under unknown keys may be added anywhere, as far as they are of a kind. -/
inductive Respelled (slots : List Slot) (Addable : Outline → Prop) :
    List (String × Outline) → List (Option String × Outline) → Prop
  | nil : Respelled slots Addable [] []
  | keep {key other : String} {value : Outline} {rest : List (String × Outline)}
      {spelled : List (Option String × Outline)} : SameField slots key other →
      Respelled slots Addable rest spelled →
      Respelled slots Addable ((key, value) :: rest) ((some other, value) :: spelled)
  | add {key : String} {value : Outline} {members : List (String × Outline)}
      {spelled : List (Option String × Outline)} : IsUnknown slots key → Addable value →
      Respelled slots Addable members spelled →
      Respelled slots Addable members ((some key, value) :: spelled)

variable {slots : List Slot} {Addable : Outline → Prop} {members : List (String × Outline)}
variable {spelled : List (Option String × Outline)} {room : Nat} {shape : Shape}

def plain (members : List (String × Outline)) : List (Option String × Outline) :=
  members.map fun member => (some member.1, member.2)

theorem Respelled.plain (slots : List Slot) (Addable : Outline → Prop) :
    ∀ members, Respelled slots Addable members (plain members)
  | [] => .nil
  | _ :: rest => .keep (fun _ _ => rfl) (Respelled.plain slots Addable rest)

section

variable {key : String} {value : Outline} {rest : List (Option String × Outline)}

theorem readMembers?_skipped (h : shape.member? key = none) :
    readMembers? room shape ((some key, value) :: rest) = readMembers? room shape rest := by
  rw [readMembers?, h]

theorem readMembers?_wanted {inner : Shape} (h : shape.member? key = some inner) :
    readMembers? room shape ((some key, value) :: rest) = (value.read? room inner).bind fun json =>
      (readMembers? room shape rest).map ((key, json) :: ·) := by
  rw [readMembers?, h]
  dsimp only
  cases value.read? room inner with
  | none => rfl
  | some json => cases readMembers? room shape rest <;> rfl

end

/-- The member is wanted, and the value is read of it. -/
inductive Gives (room : Nat) (shape : Shape) : String × Outline → String × Json → Prop
  | wanted {key : String} {value : Outline} {json : Json} (inner : Shape) :
      shape.member? key = some inner → value.read? room inner = some json →
      Gives room shape (key, value) (key, json)

theorem readMembers?_plain {values : List (String × Json)}
    (h : List.Forall₂ (Gives room shape) members values) :
    readMembers? room shape (Outline.plain members) = some values := by
  induction h with
  | nil => rfl
  | @cons member value members values hmember _ ih =>
    obtain ⟨inner, hinner, hread⟩ := hmember
    rw [Outline.plain] at ih
    rw [Outline.plain, List.map_cons, readMembers?_wanted hinner, hread, ih]
    rfl

theorem Respelled.exists_readMembers? (h : Respelled slots Addable members spelled)
    (hsame : ∀ {key other}, SameField slots key other → shape.member? other = shape.member? key)
    (hadded : ∀ {key value}, IsUnknown slots key → Addable value →
      ∀ inner ∈ shape.member? key, (value.read? room inner).isSome)
    {values : List (String × Json)}
    (hread : readMembers? room shape (Outline.plain members) = some values) :
    ∃ others, readMembers? room shape spelled = some others ∧
      ∀ slot ∈ slots, named slot others = named slot values := by
  induction h generalizing values with
  | nil => exact ⟨values, hread, fun _ _ => rfl⟩
  | @keep key other value rest spelled hkey _ ih =>
    rw [Outline.plain, List.map_cons] at hread
    cases hinner : shape.member? key with
    | none =>
      rw [readMembers?_skipped hinner] at hread
      obtain ⟨others, hothers, hnamed⟩ := ih hread
      exact ⟨others, by rw [readMembers?_skipped ((hsame hkey).trans hinner), hothers], hnamed⟩
    | some inner =>
      rw [readMembers?_wanted hinner] at hread
      obtain ⟨json, hjson, hread⟩ := Option.bind_eq_some_iff.mp hread
      obtain ⟨jsons, hjsons, rfl⟩ := Option.map_eq_some_iff.mp hread
      obtain ⟨others, hothers, hnamed⟩ := ih hjsons
      refine ⟨(other, json) :: others, ?_, fun slot hslot => ?_⟩
      · rw [readMembers?_wanted ((hsame hkey).trans hinner), hjson, hothers]
        rfl
      · rw [named_cons, named_cons, hkey slot hslot, hnamed slot hslot]
  | @add key value members spelled hkey hvalue _ ih =>
    obtain ⟨others, hothers, hnamed⟩ := ih hread
    cases hinner : shape.member? key with
    | none => exact ⟨others, by rw [readMembers?_skipped hinner, hothers], hnamed⟩
    | some inner =>
      obtain ⟨json, hjson⟩ := Option.isSome_iff_exists.mp (hadded hkey hvalue inner hinner)
      refine ⟨(key, json) :: others, ?_, fun slot hslot => ?_⟩
      · rw [readMembers?_wanted hinner, hjson, hothers]
        rfl
      · rw [named_cons, hkey slot hslot, if_neg Bool.false_ne_true, hnamed slot hslot]

/-- A record in other words gives its fields the same values. Its unknown members are skipped. -/
theorem Respelled.exists_read?_record {fields : List (Slot × Shape)}
    (hslots : fields.map (·.1) = slots) (h : Respelled slots Addable members spelled)
    {values : List (String × Json)}
    (hread : readMembers? room (.record fields) (Outline.plain members) = some values) :
    ∃ others, (Outline.object spelled).read? (room + 1) (.record fields) = some (.object others) ∧
      gather slots (.object others) = gather slots (.object values) := by
  subst hslots
  obtain ⟨others, hothers, hnamed⟩ := h.exists_readMembers? Shape.member?_sameField
    (fun hkey _ _ hinner => nomatch (Shape.member?_unknown hkey).symm.trans hinner) hread
  exact ⟨others, by simp [read?, hothers], gather_eq_of_named hnamed⟩

theorem Respelled.exists_read?_whole
    (h : Respelled slots (fun value => (value.read? room .whole).isSome) members spelled)
    {values : List (String × Json)}
    (hread : readMembers? room .whole (Outline.plain members) = some values) :
    ∃ others, (Outline.object spelled).read? (room + 1) .whole = some (.object others) ∧
      gather slots (.object others) = gather slots (.object values) := by
  obtain ⟨others, hothers, hnamed⟩ := h.exists_readMembers? (fun _ => rfl)
    (fun _ hvalue inner hinner => Option.some.inj hinner ▸ hvalue) hread
  exact ⟨others, by simp [read?, hothers], gather_eq_of_named hnamed⟩

end Outline

namespace Format

variable {α : Type} {format : Format α} {room : Nat}

/-- The outline is taken for `a`, with room for so many arrays and objects. -/
def Takes (format : Format α) (room : Nat) (a : α) (outline : Outline) : Prop :=
  ∃ json, outline.read? room format.shape = some json ∧ format.ofJson? json = some a

theorem Takes.list {Spelled : α → Outline → Prop} {as : List α} {items : List Outline}
    (h : List.Forall₂ Spelled as items)
    (htakes : ∀ a ∈ as, ∀ {item}, Spelled a item → format.Takes room a item) :
    format.list.Takes (room + 1) as (.array items) := by
  have hitems : ∃ jsons, Outline.readItems? room [] format.shape items = some jsons ∧
      jsons.mapM format.ofJson? = some as := by
    induction h with
    | nil => exact ⟨[], rfl, rfl⟩
    | cons hitem _ ih =>
      obtain ⟨hfirst, hrest⟩ := List.forall_mem_cons.mp htakes
      obtain ⟨json, hread, hjson⟩ := hfirst hitem
      obtain ⟨jsons, hreads, hjsons⟩ := ih hrest
      exact ⟨json :: jsons, by simp [Outline.readItems?, hread, hreads], by simp [hjson, hjsons]⟩
  obtain ⟨jsons, hreads, hjsons⟩ := hitems
  refine ⟨.array jsons, ?_, hjsons⟩
  simp [Outline.read?, Format.list, Shape.leading, Shape.trailing, hreads]

theorem Takes.ofText? {a : α} {outline : Outline} (h : format.Takes depthLimit a outline)
    {text : String} (htext : Outline.ofText? text = some outline) :
    format.ofText? text = some a := by
  obtain ⟨json, hread, hjson⟩ := h
  rw [Format.ofText?, readAs?, htext, Option.bind_some, hread, Option.bind_some, hjson]

end Format

end Json

end Setlist
