import Mathlib.Data.List.Forall2
import Setlist.Proofs.Json.Respelling
import Setlist.Proofs.Rule.Stored

/-! # Stored rules in other words

Rules that were stored by others may use the older names `model` and `value`, and hold keys that
are not known here. They read as the rules that are written with the names of today.
-/

namespace Setlist

open Json

/-- The outlines of members that are written as they are. -/
def memberOutlinesOf (members : List (String × Json)) : List (String × Outline) :=
  members.map fun member => (member.1, member.2.outline)

theorem plain_memberOutlinesOf (members : List (String × Json)) :
    Outline.plain (memberOutlinesOf members) = memberOutlines members := by
  induction members with
  | nil => rfl
  | cons member rest ih => exact congrArg ((some member.1, member.2.outline) :: ·) ih

theorem forall₂_gives_id {room : Nat} {shape : Shape} (hkey : shape.member? "id" = some .whole)
    (id : Option Int) : List.Forall₂ (Outline.Gives room shape)
      (memberOutlinesOf (member? "id" ofInt id)) (member? "id" ofInt id) := by
  cases id with
  | none => exact .nil
  | some i => exact .cons (.wanted .whole hkey rfl) .nil

theorem forall₂_itemOutlines {α : Type} {Spelled : α → Outline → Prop} {toJson : α → Json}
    (h : ∀ a, Spelled a (toJson a).outline) :
    ∀ {as : List α}, List.Forall₂ Spelled as (itemOutlines (as.map toJson))
  | [] => .nil
  | a :: _ => .cons (h a) (forall₂_itemOutlines h)

namespace FieldDescriptor

def members (d : FieldDescriptor) : List (String × Json) :=
  ("name", .string d.name) :: member? "type" .string d.type ++ member? "label" .string d.label ++
    member? "unit" .string d.unit

theorem toJson_eq (d : FieldDescriptor) : d.toJson = .object d.members := rfl

end FieldDescriptor

namespace FieldRef

/-- A field is a value that is read whole. -/
def format : Format FieldRef := ⟨.whole, ofJson?, toJson⟩

/-- The ways to give a field. Keys may be added to a descriptor if their values can be read. -/
inductive Spelled : FieldRef → Outline → Prop
  | named (name : String) : Spelled (.named name) (.scalar (some (.string name)))
  | described {d : FieldDescriptor} {spelled : List (Option String × Outline)} :
      Outline.Respelled FieldDescriptor.slots
        (fun value => (value.read? GroupRecord.valueRoom .whole).isSome)
        (memberOutlinesOf d.members) spelled → Spelled (.described d) (.object spelled)

theorem spelled_outline : ∀ field : FieldRef, field.Spelled field.toJson.outline
  | named name => .named name
  | described d => by
    have houtline : d.toJson.outline = .object (Outline.plain (memberOutlinesOf d.members)) :=
      congrArg Outline.object (plain_memberOutlinesOf d.members).symm
    exact houtline ▸ Spelled.described (.plain _ _ _)

theorem Spelled.takes {field : FieldRef} {outline : Outline} (h : field.Spelled outline) :
    format.Takes (GroupRecord.valueRoom + 1) field outline := by
  cases h with
  | named name => exact ⟨.string name, rfl, rfl⟩
  | @described d spelled hspelled =>
    have hdepth : memberDepth d.members ≤ GroupRecord.valueRoom :=
      (Nat.le_of_succ_le_succ (FieldRef.described d).depth_toJson).trans (Nat.zero_le _)
    have hread := Outline.readMembers?_outlines hdepth
    rw [← plain_memberOutlinesOf] at hread
    obtain ⟨others, hothers, hgather⟩ := hspelled.exists_read?_whole hread
    refine ⟨.object others, hothers, ?_⟩
    have hd := d.ofJson?_toJson
    rw [FieldDescriptor.toJson_eq, FieldDescriptor.ofJson?, ← hgather] at hd
    exact congrArg (Option.map FieldRef.described) hd

end FieldRef

namespace RuleRecord

def outlines (r : RuleRecord) (field : Outline) : List (String × Outline) :=
  memberOutlinesOf (member? "id" ofInt r.id) ++ [("field", field),
    ("operator", (Json.string r.operator).outline), ("values", (Json.array r.values).outline)]

/-- The ways to give a rule: under either name of its keys, with other keys added. -/
inductive Spelled : RuleRecord → Outline → Prop
  | object {r : RuleRecord} {field : Outline} {spelled : List (Option String × Outline)} :
      r.field.Spelled field →
      Outline.Respelled slots (fun _ => True) (r.outlines field) spelled →
      Spelled r (.object spelled)

theorem spelled_outline (r : RuleRecord) : r.Spelled r.toJson.outline := by
  have houtline : r.toJson.outline =
      .object (Outline.plain (r.outlines r.field.toJson.outline)) := by
    obtain ⟨id, field, operator, values⟩ := r
    cases id <;> rfl
  exact houtline ▸ .object r.field.spelled_outline (.plain _ _ _)

theorem readMembers?_outlines {r : RuleRecord} {field : Outline} {json : Json}
    (hfield : field.read? (GroupRecord.valueRoom + 1) .whole = some json)
    (hdepth : ∀ value ∈ r.values, value.depth ≤ GroupRecord.valueRoom) :
    Outline.readMembers? (GroupRecord.valueRoom + 1) format.shape
      (Outline.plain (r.outlines field)) = some (r.members json) := by
  have hvalues : (Json.array r.values).outline.read? (GroupRecord.valueRoom + 1) .whole =
      some (.array r.values) :=
    Outline.read?_outline (Nat.succ_le_succ (itemDepth_le_iff.mpr hdepth))
  refine Outline.readMembers?_plain (List.rel_append (forall₂_gives_id rfl r.id) ?_)
  exact .cons (.wanted .whole rfl hfield) (.cons (.wanted .whole rfl rfl)
    (.cons (.wanted .whole rfl hvalues) .nil))

theorem Spelled.takes {r : RuleRecord} {outline : Outline} (h : r.Spelled outline)
    (htyped : r.Typed) (hdepth : ∀ value ∈ r.values, value.depth ≤ GroupRecord.valueRoom) :
    format.Takes (GroupRecord.valueRoom + 2) r outline := by
  obtain ⟨hfield, hspelled⟩ := h
  obtain ⟨field, hread, hjson⟩ := hfield.takes
  have hslots : (slots.map (·, Shape.whole)).map (·.1) = slots := rfl
  obtain ⟨others, hothers, hgather⟩ :=
    hspelled.exists_read?_record hslots (readMembers?_outlines hread hdepth)
  exact ⟨.object others, hothers,
    ofJson?_of_gather htyped hjson (hgather.trans (r.gather_members field))⟩

end RuleRecord

namespace GroupRecord

def outlines (g : GroupRecord) (rules : List Outline) : List (String × Outline) :=
  memberOutlinesOf (member? "id" ofInt g.id) ++ [("rules", .array rules)]

/-- The ways to give a group: with its rules in any words, and other keys added. -/
inductive Spelled : GroupRecord → Outline → Prop
  | object {g : GroupRecord} {rules : List Outline} {spelled : List (Option String × Outline)} :
      List.Forall₂ RuleRecord.Spelled g.rules rules →
      Outline.Respelled (fields.map (·.1)) (fun _ => True) (g.outlines rules) spelled →
      Spelled g (.object spelled)

theorem spelled_outline (g : GroupRecord) : g.Spelled g.toJson.outline := by
  have houtline : g.toJson.outline = .object (Outline.plain (g.outlines
      (itemOutlines (g.rules.map RuleRecord.toJson)))) := by
    obtain ⟨id, rules⟩ := g
    cases id <;> rfl
  exact houtline ▸ .object (forall₂_itemOutlines RuleRecord.spelled_outline) (.plain _ _ _)

theorem Spelled.takes {g : GroupRecord} {outline : Outline} (h : g.Spelled outline)
    (htyped : g.Typed)
    (hdepth : ∀ rule ∈ g.rules, ∀ value ∈ rule.values, value.depth ≤ valueRoom) :
    format.Takes (valueRoom + 4) g outline := by
  obtain ⟨hrules, hspelled⟩ := h
  obtain ⟨rules, hread, hjson⟩ := Format.Takes.list hrules fun rule hrule _ hspelled =>
    hspelled.takes (htyped.rules rule hrule) (hdepth rule hrule)
  have hmembers : Outline.readMembers? (valueRoom + 3) format.shape
      (Outline.plain (g.outlines _)) = some (g.members rules) :=
    Outline.readMembers?_plain (List.rel_append (forall₂_gives_id rfl g.id)
      (.cons (.wanted RuleRecord.format.list.shape rfl hread) .nil))
  obtain ⟨others, hothers, hgather⟩ := hspelled.exists_read?_record rfl hmembers
  exact ⟨.object others, hothers,
    ofJson?_of_gather htyped hjson (hgather.trans (g.gather_members rules))⟩

inductive ListSpelled : List GroupRecord → Outline → Prop
  | array {groups : List GroupRecord} {items : List Outline} :
      List.Forall₂ Spelled groups items → ListSpelled groups (.array items)

theorem ListSpelled.takes {groups : List GroupRecord} {outline : Outline}
    (h : ListSpelled groups outline) (htyped : ∀ group ∈ groups, group.Typed)
    (hdepth : ∀ group ∈ groups, ∀ rule ∈ group.rules, ∀ value ∈ rule.values,
      value.depth ≤ valueRoom) : listFormat.Takes depthLimit groups outline := by
  obtain ⟨hitems⟩ := h
  exact Format.Takes.list hitems fun group hgroup _ hspelled =>
    hspelled.takes (htyped group hgroup) (hdepth group hgroup)

theorem listSpelled_outline (groups : List GroupRecord) :
    ListSpelled groups (listFormat.toJson groups).outline :=
  .array (forall₂_itemOutlines spelled_outline)

theorem depth_le_valueRoom {groups : List GroupRecord}
    (h : (listFormat.toJson groups).depth ≤ depthLimit) :
    ∀ group ∈ groups, ∀ rule ∈ group.rules, ∀ value ∈ rule.values, value.depth ≤ valueRoom := by
  intro group hgroup rule hrule value hvalue
  have hgroups : group.toJson.depth ≤ valueRoom + 4 :=
    itemDepth_le_iff.mp (Nat.le_of_succ_le_succ h) _ (List.mem_map_of_mem hgroup)
  have hrules : (RuleRecord.format.list.toJson group.rules).depth ≤ valueRoom + 3 :=
    memberDepth_le_iff.mp (Nat.le_of_succ_le_succ hgroups) ("rules", _)
      (List.mem_append_right _ List.mem_cons_self)
  have hthis : rule.toJson.depth ≤ valueRoom + 2 :=
    itemDepth_le_iff.mp (Nat.le_of_succ_le_succ hrules) _ (List.mem_map_of_mem hrule)
  have hvalues : (Json.array rule.values).depth ≤ valueRoom + 1 :=
    memberDepth_le_iff.mp (Nat.le_of_succ_le_succ hthis) ("values", _) (by simp)
  exact itemDepth_le_iff.mp (Nat.le_of_succ_le_succ hvalues) value hvalue

/-- Stored rules read back as they were, ids and display hints included. They are read as well
from any text that uses the older names of the keys or holds unknown ones. -/
theorem stored_rules_read_back {groups : List GroupRecord}
    (htyped : ∀ group ∈ groups, group.Typed)
    (hdepth : (listFormat.toJson groups).depth ≤ depthLimit) :
    listFormat.ofText? (listFormat.text groups) = some groups ∧
      ∀ text outline, Outline.ofText? text = some outline → ListSpelled groups outline →
        listFormat.ofText? text = some groups := by
  have hroom := depth_le_valueRoom hdepth
  have hspellings {text : String} {outline : Outline} (htext : Outline.ofText? text = some outline)
      (hspelled : ListSpelled groups outline) : listFormat.ofText? text = some groups :=
    (hspelled.takes htyped hroom).ofText? htext
  -- the text that is written is one of the spellings
  have hvalid : (listFormat.toJson groups).IsValid := (reads_list htyped hroom).valid
  exact ⟨hspellings (Outline.ofText?_text hvalid) (listSpelled_outline groups),
    fun _ _ => hspellings⟩

def bareRule : RuleRecord := ⟨none, .named "song.title", "is", [.string "A"]⟩

def describedRule : RuleRecord :=
  ⟨some 7, .described ⟨"song.length", some "number", none, some "s"⟩, "isBetween",
    [ofInt 1, .array [.null, .bool true]]⟩

/-- The first rule with the older names of its keys, and with an unknown key. -/
def otherBareRule : Json :=
  .object [("color", .string "red"), ("model", .string "song.title"), ("operator", .string "is"),
    ("value", .array [.string "A"])]

/-- The second rule with the older name of one key, and with an unknown key of its field. -/
def otherDescribedRule : Json :=
  .object [("id", ofInt 7), ("field", .object [("name", .string "song.length"),
      ("hint", .array []), ("type", .string "number"), ("unit", .string "s")]),
    ("operator", .string "isBetween"), ("value", .array [ofInt 1, .array [.null, .bool true]])]

def otherGroups : Json :=
  .array [.object [("id", ofInt 3), ("note", .null),
    ("rules", .array [otherBareRule, otherDescribedRule])]]

theorem otherGroups_spelled :
    ListSpelled [⟨some 3, [bareRule, describedRule]⟩] otherGroups.outline := by
  have hbare : bareRule.Spelled otherBareRule.outline :=
    .object (.named "song.title") (.add (by decide) trivial
      (.keep (by decide) (.keep (by decide) (.keep (by decide) .nil))))
  have hfield : describedRule.field.Spelled (Json.object [("name", .string "song.length"),
      ("hint", .array []), ("type", .string "number"), ("unit", .string "s")]).outline :=
    .described (.keep (by decide) (.add (by decide) rfl (.keep (by decide)
      (.keep (by decide) .nil))))
  have hdescribed : describedRule.Spelled otherDescribedRule.outline :=
    .object hfield (.keep (by decide) (.keep (by decide)
      (.keep (by decide) (.keep (by decide) .nil))))
  refine .array (.cons (.object (.cons hbare (.cons hdescribed .nil)) ?_) .nil)
  exact .keep (by decide) (.add (by decide) trivial (.keep (by decide) .nil))

theorem typed_bareRule : bareRule.Typed := by
  refine ⟨nofun, fun value hvalue => ?_⟩
  obtain rfl := List.mem_singleton.mp hvalue
  exact ⟨trivial, rfl⟩

theorem typed_describedRule : describedRule.Typed := by
  refine ⟨fun id hid => ?_, List.forall_mem_cons.mpr ⟨?_, List.forall_mem_singleton.mpr ?_⟩⟩
  · obtain rfl := Option.some.inj hid
    exact ⟨by decide, by decide⟩
  · exact ⟨⟨by decide, by decide⟩, rfl⟩
  · exact ⟨⟨trivial, trivial, trivial⟩, rfl⟩

theorem stored_rules_read_back_otherGroups :
    ListSpelled [⟨some 3, [bareRule, describedRule]⟩] otherGroups.outline ∧
      listFormat.ofText? otherGroups.text = some [⟨some 3, [bareRule, describedRule]⟩] := by
  have htyped : ∀ group ∈ [(⟨some 3, [bareRule, describedRule]⟩ : GroupRecord)], group.Typed := by
    refine List.forall_mem_singleton.mpr ⟨fun id hid => ?_, ?_⟩
    · obtain rfl := Option.some.inj hid
      exact ⟨by decide, by decide⟩
    · exact List.forall_mem_cons.mpr
        ⟨typed_bareRule, List.forall_mem_singleton.mpr typed_describedRule⟩
  have hdepth : (listFormat.toJson [⟨some 3, [bareRule, describedRule]⟩]).depth ≤ depthLimit := by
    decide
  have hvalid : otherGroups.IsValid := by
    simp [otherGroups, otherBareRule, otherDescribedRule, Json.IsValid, AllValid, MembersValid,
      ofInt, JsonNumber.IsValid, JsonNumber.minInteger, JsonNumber.maxInteger]
  exact ⟨otherGroups_spelled, (stored_rules_read_back htyped hdepth).2 _ _
    (Outline.ofText?_text hvalid) otherGroups_spelled⟩

end GroupRecord

end Setlist
