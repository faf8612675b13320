import Setlist.Query.Selection

/-! # When a selection admits a row

A selection admits a row when some nonempty group has all of its conditions hold. A condition
reads one field only, so rows alike in the fields that are read are admitted alike.
-/

namespace Setlist

namespace Truth

theorem and_eq_true {a b : Truth} : a.and b = some true ↔ a = some true ∧ b = some true := by
  rcases a with _ | _ | _ <;> rcases b with _ | _ | _ <;> simp [and]

theorem or_eq_true {a b : Truth} : a.or b = some true ↔ a = some true ∨ b = some true := by
  rcases a with _ | _ | _ <;> rcases b with _ | _ | _ <;> simp [or]

theorem and_assoc (a b c : Truth) : (a.and b).and c = a.and (b.and c) := by
  rcases a with _ | _ | _ <;> rcases b with _ | _ | _ <;> rcases c with _ | _ | _ <;> rfl

theorem or_assoc (a b c : Truth) : (a.or b).or c = a.or (b.or c) := by
  rcases a with _ | _ | _ <;> rcases b with _ | _ | _ <;> rcases c with _ | _ | _ <;> rfl

instance : Std.Associative and := ⟨and_assoc⟩

instance : Std.Associative or := ⟨or_assoc⟩

theorem or_false (a : Truth) : a.or (some false) = a := by
  rcases a with _ | _ | _ <;> rfl

theorem false_or (a : Truth) : or (some false) a = a := by
  rcases a with _ | _ | _ <;> rfl

end Truth

namespace Condition

variable {read read' : Field → Cell}

theorem truth_congr {condition : Condition}
    (h : ∀ field ∈ condition.fields, read field = read' field) :
    condition.truth read = condition.truth read' := by
  induction condition with
  | never => rfl
  | negation condition ih => rw [truth, truth, ih h]
  | absentOr field condition ih =>
    obtain ⟨hfield, hrest⟩ := List.forall_mem_cons.mp h
    rw [truth, truth, ih hrest, hfield]
  | _ => simp only [truth, h _ List.mem_cons_self]

theorem fails_congr {condition : Condition}
    (h : ∀ field ∈ condition.fields, read field = read' field) :
    condition.fails read = condition.fails read' := by
  induction condition with
  | negation condition ih => rw [fails, fails, ih h]
  | absentOr field condition ih =>
    obtain ⟨hfield, hrest⟩ := List.forall_mem_cons.mp h
    rw [fails, fails, ih hrest, hfield]
  | _ => rfl

end Condition

namespace Predicate

theorem eq_of_mem_equality {field : Field} {value : Value} :
    ∀ other ∈ (equality field value).fields, other = field := by
  unfold equality
  split <;> simp [Condition.fields]

/-- A predicate reads its own field and no other. -/
theorem eq_of_mem_fields (p : Predicate) (now : Instant) :
    ∀ field ∈ (p.condition now).fields, field = p.field := by
  have hcomparison : ∀ field ∈ (p.comparison now).fields, field = p.field := by
    unfold comparison
    split
    case h_1 | h_2 => exact eq_of_mem_equality
    all_goals simp [Condition.fields]
  unfold condition
  split
  case isTrue => simp [Condition.fields]
  case isFalse =>
    split
    case isTrue => exact List.forall_mem_cons.mpr ⟨rfl, hcomparison⟩
    case isFalse => exact hcomparison

theorem truth_congr {p : Predicate} {read read' : Field → Cell} (h : read p.field = read' p.field)
    (now : Instant) : (p.condition now).truth read = (p.condition now).truth read' :=
  Condition.truth_congr fun _ hfield => p.eq_of_mem_fields now _ hfield ▸ h

end Predicate

namespace Selection

theorem groupTruth_cons (row : Row) (first : Condition) (rest : List Condition) :
    groupTruth row (first :: rest) =
      (rest.map (·.truth row.cell)).foldl Truth.and (first.truth row.cell) := by
  induction rest generalizing first with
  | nil => rfl
  | cons next rest ih => rw [groupTruth, ih, List.map_cons, List.foldl_cons, List.foldl_assoc]

theorem groupTruth_eq_true {row : Row} : ∀ {group : List Condition},
    groupTruth row group = some true ↔
      group ≠ [] ∧ ∀ condition ∈ group, condition.truth row.cell = some true
  | [] => by simp [groupTruth]
  | [condition] => by simp [groupTruth]
  | condition :: next :: rest => by
    rw [groupTruth, Truth.and_eq_true, groupTruth_eq_true]
    simp

theorem truth_cons (row : Row) (first : List Condition) (rest : List (List Condition)) :
    (first :: rest).foldr (fun group rest => (groupTruth row group).or rest) (some false) =
      (rest.map (groupTruth row)).foldl Truth.or (groupTruth row first) := by
  induction rest generalizing first with
  | nil => exact Truth.or_false _
  | cons next rest ih => rw [List.foldr_cons, ih, List.map_cons, List.foldl_cons, List.foldl_assoc]

theorem truth_eq_true {s : Selection} {row : Row} : s.truth row = some true ↔
    ∃ group ∈ s.groups, group ≠ [] ∧
      ∀ condition ∈ group, condition.truth row.cell = some true := by
  rw [truth]
  induction s.groups with
  | nil => simp
  | cons group rest ih =>
    rw [List.foldr_cons, Truth.or_eq_true, groupTruth_eq_true, ih]
    simp

theorem admits_iff {s : Selection} {row : Row} : s.admits row = true ↔
    ∃ group ∈ s.groups, group ≠ [] ∧
      ∀ condition ∈ group, condition.truth row.cell = some true := by
  rw [admits, beq_iff_eq, truth_eq_true]

end Selection

end Setlist
