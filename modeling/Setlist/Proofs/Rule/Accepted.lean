import Mathlib.Data.List.Forall2
import Setlist.Rule.Expression

/-! # Accepted rules

A rule compiles when its names are known, its values are of the right number and kind, and
each of them can be read. A list of groups is accepted when all of its rules compile; each
group then holds the predicates of its rules in order.
-/

namespace Setlist

theorem Except.bind_eq_ok {ε α β : Type} {x : Except ε α} {f : α → Except ε β} {b : β} :
    x >>= f = .ok b ↔ ∃ a, x = .ok a ∧ f a = .ok b := by
  cases x with
  | error e => constructor <;> rintro h <;> simp_all [bind, Except.bind]
  | ok a => simp [bind, Except.bind]

theorem Except.map_eq_ok {ε α β : Type} {x : Except ε α} {f : α → β} {b : β} :
    x.map f = .ok b ↔ ∃ a, x = .ok a ∧ f a = b := by
  cases x <;> simp [Except.map]

theorem Except.map_eq_error {ε α β : Type} {x : Except ε α} {f : α → β} {e : ε} :
    x.map f = .error e ↔ x = .error e := by
  cases x <;> simp [Except.map]

theorem Except.guard_eq_ok {ε α β : Type} {test : Prop} [Decidable test] {e : ε}
    {f : α → Except ε β} {rest : Except ε β} {b : β} :
    (if test then throw e >>= f else rest) = .ok b ↔ ¬test ∧ rest = .ok b := by
  by_cases h : test
  · simp [h, throw, throwThe, MonadExceptOf.throw, bind, Except.bind]
  · simp [h]

theorem Except.mapM_eq_ok {ε α β : Type} {f : α → Except ε β} {xs : List α} {ys : List β} :
    xs.mapM f = .ok ys ↔ List.Forall₂ (fun x y => f x = .ok y) xs ys := by
  induction xs generalizing ys with
  | nil =>
    rw [List.mapM_nil, List.forall₂_nil_left_iff]
    constructor
    · rintro ⟨⟩
      rfl
    · rintro rfl
      rfl
  | cons x xs ih =>
    rw [List.mapM_cons, List.forall₂_cons_left_iff]
    simp only [Except.bind_eq_ok, ih]
    constructor
    · rintro ⟨y, hy, zs, hzs, h⟩
      exact ⟨y, zs, hy, hzs, (Except.ok.inj h).symm⟩
    · rintro ⟨y, zs, hy, hzs, rfl⟩
      exact ⟨y, hy, zs, hzs, rfl⟩

theorem exists_of_forall₂ {α β : Type} {R : α → β → Prop} {xs : List α} {ys : List β}
    (h : List.Forall₂ R xs ys) {y : β} (hy : y ∈ ys) : ∃ x ∈ xs, R x y := by
  induction h with
  | nil => cases hy
  | cons hfirst _ ih =>
    rcases List.mem_cons.mp hy with rfl | hrest
    · exact ⟨_, List.mem_cons_self, hfirst⟩
    · obtain ⟨x, hx, hR⟩ := ih hrest
      exact ⟨x, List.mem_cons_of_mem _ hx, hR⟩

theorem eq_pair_of_forall₂ {α β : Type} {R : α → β → Prop} {xs : List α} {y z : β}
    (h : List.Forall₂ R xs [y, z]) : ∃ w x, xs = [w, x] ∧ R w y ∧ R x z := by
  obtain ⟨w, rest, hw, hrest, rfl⟩ := List.forall₂_cons_right_iff.mp h
  obtain ⟨x, none, hx, hnone, rfl⟩ := List.forall₂_cons_right_iff.mp hrest
  obtain rfl := List.forall₂_nil_right_iff.mp hnone
  exact ⟨w, x, rfl, hw, hx⟩

theorem Except.mapM_eq_error {ε α β : Type} {f : α → Except ε β} {xs : List α} {e : ε} :
    xs.mapM f = .error e ↔ ∃ before x after, xs = before ++ x :: after ∧
      (∀ earlier ∈ before, ∃ y, f earlier = .ok y) ∧ f x = .error e := by
  induction xs with
  | nil => simp [pure, Except.pure]
  | cons x xs ih =>
    rw [List.mapM_cons]
    simp only [List.cons_eq_append_iff]
    cases hx : f x with
    | error fault =>
      constructor
      · rintro ⟨⟩
        exact ⟨[], x, xs, .inl ⟨rfl, rfl⟩, nofun, hx⟩
      · rintro ⟨before, y, after, ⟨rfl, h⟩ | ⟨rest, rfl, -⟩, hbefore, hy⟩
        · obtain ⟨rfl, rfl⟩ := List.cons.inj h
          obtain rfl := Except.error.inj (hx.symm.trans hy)
          rfl
        · obtain ⟨_, hok⟩ := hbefore x List.mem_cons_self
          cases hx.symm.trans hok
    | ok y =>
      have hrest : (do let y ← .ok y; let ys ← xs.mapM f; pure (y :: ys) : Except ε (List β)) =
          .error e ↔ xs.mapM f = .error e := by
        cases xs.mapM f <;> simp [bind, Except.bind, pure, Except.pure]
      rw [hrest, ih]
      constructor
      · rintro ⟨before, z, after, rfl, hbefore, hz⟩
        exact ⟨x :: before, z, after, .inr ⟨before, rfl, rfl⟩,
          List.forall_mem_cons.mpr ⟨⟨y, hx⟩, hbefore⟩, hz⟩
      · rintro ⟨before, z, after, ⟨rfl, h⟩ | ⟨rest, rfl, rfl⟩, hbefore, hz⟩
        · obtain ⟨rfl, rfl⟩ := List.cons.inj h
          cases hx.symm.trans hz
        · exact ⟨rest, z, after, rfl, (List.forall_mem_cons.mp hbefore).2, hz⟩

theorem Except.exists_mapM {ε α β : Type} {f : α → Except ε β} {xs : List α}
    (h : ∀ x ∈ xs, ∃ y, f x = .ok y) : ∃ ys, xs.mapM f = .ok ys := by
  induction xs with
  | nil => exact ⟨[], rfl⟩
  | cons x xs ih =>
    obtain ⟨y, hy⟩ := h x List.mem_cons_self
    obtain ⟨ys, hys⟩ := ih fun other hother => h other (List.mem_cons_of_mem _ hother)
    exact ⟨y :: ys, Except.mapM_eq_ok.mpr (.cons hy (Except.mapM_eq_ok.mp hys))⟩

namespace Field

theorem resolve_eq_ok {name : String} {field : Field} :
    resolve name = .ok field ↔ find? name = some field := by
  unfold resolve
  cases find? name <;> simp

end Field

namespace Operator

theorem resolve_eq_ok {name : String} {operator : Operator} :
    resolve name = .ok operator ↔ find? name = some operator := by
  unfold resolve
  cases find? name <;> simp

end Operator

namespace Rule

def RangeHolds (field : Field) (values : List Json) : Prop :=
  ∀ low high, values = [low, high] → checkRange field low high = .ok ()

/-- The shape of a rule is right: its names are known, its values as many as they should be,
the operator fits the field, and a range does not descend. -/
structure Shaped (record : RuleRecord) (field : Field) (operator : Operator) : Prop where
  isField : Field.find? record.field.fieldName = some field
  isOperator : Operator.find? record.operator = some operator
  arity : record.values.length = operator.arity
  accepts : operator.accepts field = true
  range : operator = .isBetween → RangeHolds field record.values

theorem ofRecord_eq_ok {record : RuleRecord} {rule : Rule} : ofRecord record = .ok rule ↔
    Shaped record rule.field rule.operator ∧ rule.id = record.id ∧
      rule.values = record.values := by
  unfold ofRecord
  simp only [Except.bind_eq_ok, Field.resolve_eq_ok, Operator.resolve_eq_ok, Except.guard_eq_ok,
    not_not, Bool.not_eq_true', Bool.not_eq_false]
  constructor
  · rintro ⟨field, hfield, operator, hoperator, harity, haccepts, h⟩
    split at h
    case isTrue =>
      split at h
      case h_1 low high hvalues =>
        obtain ⟨_, hcheck, h⟩ := Except.bind_eq_ok.mp h
        obtain rfl := Except.ok.inj h
        refine ⟨⟨hfield, hoperator, harity, haccepts, fun _ low' high' hvalues' => ?_⟩, rfl, rfl⟩
        obtain ⟨rfl, rfl⟩ : low = low' ∧ high = high' := by simpa [hvalues] using hvalues'
        exact hcheck
      case h_2 hnone =>
        obtain rfl := Except.ok.inj h
        exact ⟨⟨hfield, hoperator, harity, haccepts, fun _ low high hvalues =>
          (hnone low high hvalues).elim⟩, rfl, rfl⟩
    case isFalse hbetween =>
      obtain rfl := Except.ok.inj h
      exact ⟨⟨hfield, hoperator, harity, haccepts, fun h => (hbetween h).elim⟩, rfl, rfl⟩
  · obtain ⟨id, field, operator, values⟩ := rule
    rintro ⟨⟨hfield, hoperator, harity, haccepts, hrange⟩, rfl, rfl⟩
    refine ⟨field, hfield, operator, hoperator, harity, haccepts, ?_⟩
    split
    case isTrue hbetween =>
      split
      case h_1 low high hvalues =>
        exact Except.bind_eq_ok.mpr ⟨(), hrange hbetween low high hvalues, rfl⟩
      case h_2 => rfl
    case isFalse => rfl

end Rule

/-- A rule compiles to a predicate of its field and operator, each of its values read. -/
theorem RuleRecord.compile_eq_ok {record : RuleRecord} {p : Predicate} :
    record.compile = .ok p ↔ Rule.Shaped record p.field p.operator ∧
      List.Forall₂ (fun raw value => Rule.compileValue p.field p.operator raw = .ok value)
        record.values p.values ∧ p.joins = .ofOption p.field.relation := by
  obtain ⟨field, operator, values, joins⟩ := p
  simp only [RuleRecord.compile, Except.bind_eq_ok, Rule.ofRecord_eq_ok, Rule.compile,
    Except.mapM_eq_ok]
  constructor
  · rintro ⟨⟨id, field', operator', values'⟩, ⟨hshaped, rfl, rfl⟩, read, hread, h⟩
    obtain ⟨rfl, rfl, rfl, rfl⟩ := Predicate.mk.inj (Except.ok.inj h)
    exact ⟨hshaped, hread, rfl⟩
  · rintro ⟨hshaped, hread, rfl⟩
    exact ⟨⟨record.id, field, operator, record.values⟩, ⟨hshaped, rfl, rfl⟩, values, hread, rfl⟩

/-- A text or a number: all that any rule can read. -/
inductive Json.IsPlain : Json → Prop
  | string (value : String) : IsPlain (.string value)
  | number (value : JsonNumber) : IsPlain (.number value)

namespace Value

theorem readText_isPlain {raw : Json} {text : String} (h : readText raw = .ok text) :
    raw.IsPlain := by
  cases raw with
  | string value => exact .string value
  | number value => exact .number value
  | _ => cases h

theorem readNumber_isPlain {raw : Json} {value : Binary64} (h : readNumber raw = .ok value) :
    raw.IsPlain := by
  cases raw with
  | string value => exact .string value
  | number value => exact .number value
  | _ => cases h

theorem readInstant_isPlain {raw : Json} {value : Instant} (h : readInstant raw = .ok value) :
    raw.IsPlain := by
  cases raw with
  | string value => exact .string value
  | _ => cases h

theorem readWindow_isPlain {unit : TimeUnit} {raw : Json} {value : Value}
    (h : readWindow unit raw = .ok value) : raw.IsPlain := by
  obtain ⟨_, hcount, _⟩ := Except.bind_eq_ok.mp h
  exact readNumber_isPlain hcount

theorem read_isPlain {type : ValueType} {raw : Json} {value : Value}
    (h : read type raw = .ok value) : raw.IsPlain := by
  cases type with
  | text =>
    obtain ⟨_, htext, _⟩ := Except.map_eq_ok.mp h
    exact readText_isPlain htext
  | number =>
    obtain ⟨_, hnumber, _⟩ := Except.map_eq_ok.mp h
    exact readNumber_isPlain hnumber
  | date =>
    obtain ⟨_, hinstant, _⟩ := Except.map_eq_ok.mp h
    exact readInstant_isPlain hinstant

end Value

theorem Rule.compileValue_isPlain {field : Field} {operator : Operator} {raw : Json} {value : Value}
    (h : compileValue field operator raw = .ok value) : raw.IsPlain := by
  unfold compileValue at h
  split at h
  case h_1 =>
    split at h
    case h_1 => exact Value.readWindow_isPlain h
    case h_2 => cases h
  case h_2 =>
    split at h
    case h_1 =>
      obtain ⟨_, htext, _⟩ := Except.map_eq_ok.mp h
      exact Value.readText_isPlain htext
    case h_2 => exact Value.read_isPlain h

theorem RuleRecord.isPlain_of_compile {record : RuleRecord} {p : Predicate}
    (h : record.compile = .ok p) : ∀ raw ∈ record.values, raw.IsPlain := by
  obtain ⟨-, hread, -⟩ := compile_eq_ok.mp h
  have hplain := hread.imp fun raw value hvalue =>
    And.intro (Rule.compileValue_isPlain hvalue) hvalue
  exact ((List.forall₂_and_left _ _).mp hplain).1

namespace GroupRecord

/-- Every rule of every group compiles. -/
def Accepted (groups : List GroupRecord) : Prop :=
  ∀ group ∈ groups, ∀ record ∈ group.rules, ∃ p, record.compile = .ok p

theorem forall_zipIdx {α : Type} {P : α → Prop} {items : List α} :
    (∀ item ∈ items.zipIdx, P item.1) ↔ ∀ item ∈ items, P item := by
  rw [← List.forall_mem_map (f := Prod.fst), List.zipIdx_map_fst]

theorem faults_eq_nil {group : GroupRecord} {place : Nat} :
    group.faults place = [] ↔ ∀ record ∈ group.rules, ∃ p, record.compile = .ok p := by
  rw [faults, List.filterMap_eq_nil_iff]
  refine Iff.trans (forall₂_congr fun (record, rule) _ => ?_) forall_zipIdx
  dsimp only
  cases record.compile <;> simp

theorem allFaults_eq_nil {groups : List GroupRecord} : allFaults groups = [] ↔ Accepted groups := by
  rw [allFaults, List.flatMap_eq_nil_iff]
  exact Iff.trans (forall₂_congr fun (group, place) _ => faults_eq_nil) forall_zipIdx

theorem compileStrict_eq_ok {user : Int} {groups : List GroupRecord} {e : Expression} :
    compileStrict user groups = .ok e ↔
      Accepted groups ∧ e = .ofGroups user (groups.map predicates) := by
  rw [← allFaults_eq_nil]
  cases hfaults : allFaults groups with
  | nil => simp [compileStrict, compile, hfaults, eq_comm]
  | cons fault more => simp [compileStrict, compile, hfaults]

theorem user_of_compileStrict {user : Int} {groups : List GroupRecord} {e : Expression}
    (h : compileStrict user groups = .ok e) : e.user = user := by
  obtain ⟨-, rfl⟩ := compileStrict_eq_ok.mp h
  rfl

theorem map_compile {group : GroupRecord}
    (h : ∀ record ∈ group.rules, ∃ p, record.compile = .ok p) :
    group.rules.map RuleRecord.compile = group.predicates.map .ok := by
  obtain ⟨ps, hps⟩ := Except.exists_mapM h
  rw [predicates, hps, ← List.forall₂_eq_eq_eq, List.forall₂_map_left_iff,
    List.forall₂_map_right_iff]
  exact Except.mapM_eq_ok.mp hps

theorem exists_record {group : GroupRecord} {p : Predicate} (hp : p ∈ group.predicates) :
    ∃ record ∈ group.rules, record.compile = .ok p := by
  unfold predicates at hp
  split at hp
  case h_1 ps hps => exact exists_of_forall₂ (Except.mapM_eq_ok.mp hps) hp
  case h_2 => cases hp

end GroupRecord

end Setlist
