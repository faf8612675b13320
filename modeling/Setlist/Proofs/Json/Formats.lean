import Setlist.Json.Record
import Setlist.Proofs.Json.Parsing

/-! # Reading records back

A format reads what it writes if its shape wants all of the written value and the value is
taken for what was written. Lists do so when their items do.
-/

namespace Setlist

namespace Json

namespace Outline

theorem readItems?_list {room : Nat} {item : Shape} : ∀ {items : List Json},
    (∀ value ∈ items, value.outline.read? room item = some value) →
    readItems? room [] item (itemOutlines items) = some items
  | [], _ => rfl
  | value :: rest, h => by
    have hvalue := h value List.mem_cons_self
    have hrest := readItems?_list fun other hother => h other (List.mem_cons_of_mem _ hother)
    simp [itemOutlines, readItems?, hvalue, hrest]

theorem read?_list {room : Nat} {item : Shape} {items : List Json}
    (h : ∀ value ∈ items, value.outline.read? room item = some value) :
    (Json.array items).outline.read? (room + 1) (.list item) = some (.array items) := by
  simp [outline, read?, Shape.leading, Shape.trailing, readItems?_list h]

/-- The shape wants the member, and reads its value whole. -/
def ReadsMember (room : Nat) (shape : Shape) (member : String × Json) : Prop :=
  ∃ inner, shape.member? member.1 = some inner ∧
    member.2.outline.read? room inner = some member.2

theorem ReadsMember.whole {room : Nat} {shape : Shape} {key : String} {value : Json}
    (hkey : shape.member? key = some .whole) (h : value.depth ≤ room) :
    ReadsMember room shape (key, value) := ⟨.whole, hkey, read?_outline h⟩

theorem readMembers?_record {room : Nat} {shape : Shape} : ∀ {members : List (String × Json)},
    (∀ member ∈ members, ReadsMember room shape member) →
    readMembers? room shape (memberOutlines members) = some members
  | [], _ => rfl
  | (key, value) :: rest, h => by
    obtain ⟨inner, hinner, hvalue⟩ := h (key, value) List.mem_cons_self
    have hrest := readMembers?_record fun other hother => h other (List.mem_cons_of_mem _ hother)
    simp [memberOutlines, readMembers?, hinner, hvalue, hrest]

theorem read?_object {room : Nat} {shape : Shape} {members : List (String × Json)}
    (h : ∀ member ∈ members, ReadsMember room shape member) :
    (Json.object members).outline.read? (room + 1) shape = some (.object members) := by
  simp [outline, read?, readMembers?_record h]

end Outline

theorem allValid_iff {items : List Json} : AllValid items ↔ ∀ value ∈ items, value.IsValid := by
  induction items with
  | nil => simp [AllValid]
  | cons item rest ih => simp [AllValid, ih]

theorem membersValid_iff {members : List (String × Json)} :
    MembersValid members ↔ ∀ member ∈ members, member.2.IsValid := by
  induction members with
  | nil => simp [MembersValid]
  | cons member rest ih => simp [MembersValid, ih]

theorem itemDepth_le_iff {room : Nat} {items : List Json} :
    itemDepth items ≤ room ↔ ∀ value ∈ items, value.depth ≤ room := by
  induction items with
  | nil => simp [itemDepth]
  | cons item rest ih => simp [itemDepth, ih]

theorem memberDepth_le_iff {room : Nat} {members : List (String × Json)} :
    memberDepth members ≤ room ↔ ∀ member ∈ members, member.2.depth ≤ room := by
  induction members with
  | nil => simp [memberDepth]
  | cons member rest ih => simp [memberDepth, ih]

theorem forall_member? {α : Type} {P : String × Json → Prop} {key : String} {write : α → Json}
    {value : Option α} (h : ∀ a ∈ value, P (key, write a)) :
    ∀ member ∈ member? key write value, P member := by
  cases value with
  | none => simp [member?]
  | some a => simpa [member?] using h

namespace Format

variable {α : Type} {format : Format α} {room : Nat}

/-- What is written of `a` can be read back, with room for so many arrays and objects. -/
structure Reads (format : Format α) (room : Nat) (a : α) : Prop where
  valid : (format.toJson a).IsValid
  wanted : (format.toJson a).outline.read? room format.shape = some (format.toJson a)
  taken : format.ofJson? (format.toJson a) = some a

theorem Reads.ofText?_text {a : α} (h : format.Reads depthLimit a) :
    format.ofText? (format.text a) = some a := by
  rw [ofText?, text, readAs?, Outline.ofText?_text h.valid, Option.bind_some, h.wanted,
    Option.bind_some, h.taken]

theorem list?_map {as : List α} (h : ∀ a ∈ as, format.ofJson? (format.toJson a) = some a) :
    (as.map format.toJson).mapM format.ofJson? = some as := by
  induction as with
  | nil => rfl
  | cons a rest ih =>
    have hrest := ih fun other hother => h other (List.mem_cons_of_mem _ hother)
    rw [List.map_cons, List.mapM_cons, h a List.mem_cons_self, hrest]
    rfl

theorem Reads.list {as : List α} (h : ∀ a ∈ as, format.Reads room a) :
    format.list.Reads (room + 1) as where
  valid := by
    apply allValid_iff.mpr
    intro value hvalue
    obtain ⟨a, ha, rfl⟩ := List.mem_map.mp hvalue
    exact (h a ha).valid
  wanted := by
    refine Outline.read?_list fun value hvalue => ?_
    obtain ⟨a, ha, rfl⟩ := List.mem_map.mp hvalue
    exact (h a ha).wanted
  taken := list?_map fun a ha => (h a ha).taken

end Format

end Json

end Setlist
