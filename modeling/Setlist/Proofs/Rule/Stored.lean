import Setlist.Proofs.Json.Formats
import Setlist.Proofs.Rule.Accepted

/-! # Rules survive being stored

The text that rules are written as reads back as the same rules, ids and display hints
included, as long as the values do not lie too deep for the reader.
-/

namespace Setlist

open Json

def IsStoredId (id : Int) : Prop := -2 ^ 63 ≤ id ∧ id ≤ 2 ^ 63 - 1

/-- A value as rules hold it: its numbers are those of JSON, its members are in order. -/
structure Json.IsFree (value : Json) : Prop where
  valid : value.IsValid
  canonical : value.canonical = value

theorem int64?_ofInt {id : Int} (h : IsStoredId id) : int64? (ofInt id) = some id := if_pos h

theorem optional_ofInt : ∀ {id : Option Int}, (∀ i ∈ id, IsStoredId i) →
    Json.optional int64? (id.map ofInt) = some id
  | none, _ => rfl
  | some i, h => congrArg (Option.map some) (int64?_ofInt (h i rfl))

theorem ofInt_isValid {id : Int} (h : IsStoredId id) : (ofInt id).IsValid := by
  obtain ⟨hleast, hgreatest⟩ := h
  have hrange : JsonNumber.minInteger ≤ id ∧ id ≤ JsonNumber.maxInteger := by
    unfold JsonNumber.minInteger JsonNumber.maxInteger
    omega
  exact hrange

namespace FieldDescriptor

theorem ofJson?_toJson (d : FieldDescriptor) : ofJson? d.toJson = some d := by
  obtain ⟨name, type, label, unit⟩ := d
  cases type <;> cases label <;> cases unit <;> rfl

end FieldDescriptor

namespace FieldRef

theorem ofJson?_toJson : ∀ field : FieldRef, ofJson? field.toJson = some field
  | named _ => rfl
  | described d => by
    have hd := FieldDescriptor.ofJson?_toJson d
    exact congrArg (Option.map FieldRef.described) hd

theorem depth_toJson (field : FieldRef) : field.toJson.depth ≤ 1 := by
  cases field with
  | named _ => exact Nat.zero_le _
  | described d =>
    obtain ⟨name, type, label, unit⟩ := d
    cases type <;> cases label <;> cases unit <;> exact Nat.le_refl _

theorem toJson_isValid (field : FieldRef) : field.toJson.IsValid := by
  cases field with
  | named _ => exact trivial
  | described d =>
    obtain ⟨name, type, label, unit⟩ := d
    cases type <;> cases label <;> cases unit <;>
      simp [toJson, FieldDescriptor.toJson, member?, IsValid, MembersValid]

end FieldRef

namespace RuleRecord

/-- The id can be stored, and the values are as rules hold them. -/
structure Typed (r : RuleRecord) : Prop where
  id : ∀ id ∈ r.id, IsStoredId id
  values : ∀ value ∈ r.values, value.IsFree

theorem mapM_free {values : List Json} (h : ∀ value ∈ values, value.IsFree) :
    values.mapM free? = some values := by
  induction values with
  | nil => rfl
  | cons value rest ih =>
    have hrest := ih fun other hother => h other (List.mem_cons_of_mem _ hother)
    rw [List.mapM_cons, hrest, free?, (h value List.mem_cons_self).canonical]
    rfl

def members (r : RuleRecord) (field : Json) : List (String × Json) :=
  member? "id" ofInt r.id ++
    [("field", field), ("operator", .string r.operator), ("values", .array r.values)]

theorem gather_members (r : RuleRecord) (field : Json) : gather slots (.object (r.members field)) =
    some [r.id.map ofInt, some field, some (.string r.operator), some (.array r.values)] := by
  obtain ⟨id, _, operator, values⟩ := r
  cases id <;> rfl

theorem ofJson?_of_gather {r : RuleRecord} (h : r.Typed) {json field : Json}
    (hfield : FieldRef.ofJson? field = some r.field)
    (hgather : gather slots json = some [r.id.map ofInt, some field, some (.string r.operator),
      some (.array r.values)]) : ofJson? json = some r := by
  have hid := optional_ofInt h.id
  have hvalues := mapM_free h.values
  simp [ofJson?, hgather, hid, required, hfield, string?, defaulted, list?, hvalues]

theorem ofJson?_toJson {r : RuleRecord} (h : r.Typed) : ofJson? r.toJson = some r :=
  ofJson?_of_gather h r.field.ofJson?_toJson (r.gather_members r.field.toJson)

theorem Typed.reads {room : Nat} {r : RuleRecord} (h : r.Typed)
    (hdepth : ∀ value ∈ r.values, value.depth ≤ room) : format.Reads (room + 2) r where
  valid := by
    have hid : ∀ member ∈ member? "id" ofInt r.id, member.2.IsValid :=
      forall_member? fun i hi => ofInt_isValid (h.id i hi)
    have hvalues : (Json.array r.values).IsValid :=
      allValid_iff.mpr fun value hvalue => (h.values value hvalue).valid
    refine membersValid_iff.mpr (List.forall_mem_append.mpr ⟨hid, ?_⟩)
    simp only [List.forall_mem_cons]
    exact ⟨r.field.toJson_isValid, trivial, hvalues, fun _ h => nomatch h⟩
  wanted := by
    have hid : ∀ member ∈ member? "id" ofInt r.id,
        Outline.ReadsMember (room + 1) format.shape member :=
      forall_member? fun i _ => .whole rfl (Nat.zero_le _)
    have hfield := r.field.depth_toJson
    have hvalues : (Json.array r.values).depth ≤ room + 1 :=
      Nat.succ_le_succ (itemDepth_le_iff.mpr hdepth)
    refine Outline.read?_object (List.forall_mem_append.mpr ⟨hid, ?_⟩)
    simp only [List.forall_mem_cons]
    exact ⟨.whole rfl (by omega), .whole rfl (Nat.zero_le _), .whole rfl hvalues,
      fun _ h => nomatch h⟩
  taken := ofJson?_toJson h

end RuleRecord

namespace GroupRecord

structure Typed (g : GroupRecord) : Prop where
  id : ∀ id ∈ g.id, IsStoredId id
  rules : ∀ rule ∈ g.rules, rule.Typed

def members (g : GroupRecord) (rules : Json) : List (String × Json) :=
  member? "id" ofInt g.id ++ [("rules", rules)]

theorem gather_members (g : GroupRecord) (rules : Json) :
    gather (fields.map (·.1)) (.object (g.members rules)) = some [g.id.map ofInt, some rules] := by
  obtain ⟨id, _⟩ := g
  cases id <;> rfl

theorem ofJson?_of_gather {g : GroupRecord} (h : g.Typed) {json rules : Json}
    (hrules : RuleRecord.format.list.ofJson? rules = some g.rules)
    (hgather : gather (fields.map (·.1)) json = some [g.id.map ofInt, some rules]) :
    ofJson? json = some g := by
  have hid := optional_ofInt h.id
  simp [ofJson?, hgather, hid, defaulted, hrules]

theorem Typed.reads {room : Nat} {g : GroupRecord} (h : g.Typed)
    (hdepth : ∀ rule ∈ g.rules, ∀ value ∈ rule.values, value.depth ≤ room) :
    format.Reads (room + 4) g := by
  have hrules := Format.Reads.list fun rule hrule => (h.rules rule hrule).reads (hdepth rule hrule)
  constructor
  case valid =>
    have hid : ∀ member ∈ member? "id" ofInt g.id, member.2.IsValid :=
      forall_member? fun i hi => ofInt_isValid (h.id i hi)
    refine membersValid_iff.mpr (List.forall_mem_append.mpr ⟨hid, ?_⟩)
    simp only [List.forall_mem_cons]
    exact ⟨hrules.valid, fun _ h => nomatch h⟩
  case wanted =>
    have hid : ∀ member ∈ member? "id" ofInt g.id,
        Outline.ReadsMember (room + 3) format.shape member :=
      forall_member? fun i _ => .whole rfl (Nat.zero_le _)
    refine Outline.read?_object (List.forall_mem_append.mpr ⟨hid, ?_⟩)
    simp only [List.forall_mem_cons]
    exact ⟨⟨_, rfl, hrules.wanted⟩, fun _ h => nomatch h⟩
  case taken => exact ofJson?_of_gather h hrules.taken (g.gather_members _)

theorem typed_single {field operator literal : String} : ∀ group ∈
    ([⟨none, [⟨none, .named field, operator, [.string literal]⟩]⟩] : List GroupRecord),
      group.Typed := by
  intro group hgroup
  obtain rfl := List.mem_singleton.mp hgroup
  refine ⟨nofun, fun rule hrule => ?_⟩
  obtain rfl := List.mem_singleton.mp hrule
  refine ⟨nofun, fun value hvalue => ?_⟩
  obtain rfl := List.mem_singleton.mp hvalue
  exact ⟨trivial, rfl⟩

/-- What the arrays and objects around the values of stored rules leave of the reader's depth. -/
def valueRoom : Nat := depthLimit - 5

theorem reads_list {groups : List GroupRecord} (h : ∀ group ∈ groups, group.Typed)
    (hdepth : ∀ group ∈ groups, ∀ rule ∈ group.rules, ∀ value ∈ rule.values,
      value.depth ≤ valueRoom) : listFormat.Reads depthLimit groups :=
  Format.Reads.list fun group hgroup => (h group hgroup).reads (hdepth group hgroup)

/-- Stored rules read back as they were, ids and display hints included. -/
theorem ofText?_text {groups : List GroupRecord} (h : ∀ group ∈ groups, group.Typed)
    (hdepth : ∀ group ∈ groups, ∀ rule ∈ group.rules, ∀ value ∈ rule.values,
      value.depth ≤ valueRoom) :
    listFormat.ofText? (listFormat.text groups) = some groups :=
  (reads_list h hdepth).ofText?_text

/-- The values of accepted rules are texts and numbers, so accepted rules can always be stored. -/
theorem ofText?_text_of_accepted {groups : List GroupRecord} (h : ∀ group ∈ groups, group.Typed)
    (haccepted : Accepted groups) :
    listFormat.ofText? (listFormat.text groups) = some groups := by
  refine ofText?_text h fun group hgroup rule hrule value hvalue => ?_
  obtain ⟨p, hp⟩ := haccepted group hgroup rule hrule
  rcases RuleRecord.isPlain_of_compile hp value hvalue with _ | _
  · exact Nat.zero_le _
  · exact Nat.zero_le _

end GroupRecord

end Setlist
