import Setlist.Proofs.Query.Places
import Setlist.Proofs.Rule.Typing

/-! # No predicate is rendered false

A predicate whose values do not fit its operator would be rendered as a constant that is false,
and a window that is not anchored as a bare count. Typed predicates are rendered as neither, so
in what was compiled such a constant only ever stands for a group without predicates.
-/

namespace Setlist

/-- No part of the condition stands for a predicate of a wrong shape. -/
def Condition.IsLive : Condition → Prop
  | never => False
  | negation condition | absentOr _ condition => condition.IsLive
  | _ => True

namespace Predicate

variable {p : Predicate}

theorem equality_isLive (field : Field) (value : Value) : (equality field value).IsLive := by
  unfold equality
  split <;> trivial

theorem Typed.isLive (h : p.Typed) (now : Instant) : (p.condition now).IsLive := by
  have hcomparison : (p.comparison now).IsLive := by
    obtain ⟨field, operator, values, _⟩ := p
    have harity := h.arity
    cases operator with
    | isBetween =>
      obtain ⟨_, _, rfl⟩ := List.length_eq_two.mp harity
      trivial
    | is | isNot =>
      obtain ⟨_, rfl⟩ := List.length_eq_one_iff.mp harity
      exact equality_isLive _ _
    | _ =>
      obtain ⟨_, rfl⟩ := List.length_eq_one_iff.mp harity
      trivial
  rw [condition_of_count h.arity]
  split <;> exact hcomparison

theorem datum_ne_integer {value : Value} (h : value.kind ≠ .window) (count : Int) :
    value.datum ≠ .integer count := by
  cases value with
  | window => exact (h rfl).elim
  | _ => simp [Value.datum]

theorem valueKind_ne_window {operator : Operator} (h : operator.operand = .fieldValue)
    (field : Field) : operator.valueKind field ≠ .window := by
  cases operator <;> first | (cases h; done) | (cases field <;> decide)

theorem Typed.bound_ne_integer (h : p.Typed) (now : Instant) {value : Datum}
    (hvalue : value ∈ p.bound now) (count : Int) : value ≠ .integer count := by
  rw [bound, if_neg (not_not.mpr h.arity)] at hvalue
  split at hvalue
  case h_1 hoperand =>
    obtain ⟨own, hown, rfl⟩ := List.mem_map.mp hvalue
    exact datum_ne_integer (h.kind own hown ▸ valueKind_ne_window hoperand p.field) count
  case h_2 =>
    obtain ⟨own, -, hends⟩ := List.mem_flatMap.mp hvalue
    intro hcount
    rcases List.mem_pair.mp hends with rfl | rfl <;> cases hcount

end Predicate

namespace Sql

/-- How often the constant that is false stands in a query. -/
def zeros (sql : Sql) : Nat := sql.count (.text "0")

@[simp] theorem zeros_nil : zeros [] = 0 := rfl

@[simp] theorem zeros_text (text : String) (sql : Sql) :
    zeros (.text text :: sql) = zeros sql + if text = "0" then 1 else 0 := by
  simp [zeros, List.count_cons]

@[simp] theorem zeros_bind (value : Datum) (sql : Sql) :
    zeros (.bind value :: sql) = zeros sql := by
  simp [zeros]

@[simp] theorem zeros_append (sql more : Sql) : zeros (sql ++ more) = zeros sql + zeros more :=
  List.count_append

theorem zeros_separated {separator : String} (h : separator ≠ "0") :
    ∀ all : List Sql, zeros (separated separator all) = (all.map zeros).sum
  | [] => rfl
  | [sql] => by simp [separated]
  | sql :: next :: rest => by
    rw [separated, zeros_append, zeros_text, zeros_separated h (next :: rest), if_neg h]
    rfl

end Sql

theorem Field.column_within_ne (field : Field) (before after : String) :
    before ++ field.column ++ after ≠ "0" := by
  intro h
  have hlength := congrArg String.length h
  have hcolumn : 2 ≤ field.column.length := by cases field <;> decide
  rw [String.length_append, String.length_append] at hlength
  have hzero : "0".length = 1 := rfl
  omega

theorem Condition.IsLive.zeros_sql {condition : Condition} (h : condition.IsLive) :
    condition.sql.zeros = 0 := by
  have hbefore (field : Field) (after : String) : field.column ++ after ≠ "0" := by
    simpa using field.column_within_ne "" after
  have hwithin := Field.column_within_ne
  induction condition with
  | never => cases h
  | negation condition ih => simp [sql, ih h]
  | absentOr field condition ih => simp [sql, ih h, hwithin]
  | _ => simp [sql, hbefore, hwithin]

namespace Selection

theorem zeros_groupSql {group : List Condition} (h : ∀ condition ∈ group, condition.IsLive) :
    (groupSql group).zeros = if group.isEmpty then 1 else 0 := by
  cases group with
  | nil => rfl
  | cons first rest =>
    have hall : ∀ count ∈ ((first :: rest).map (·.sql)).map Sql.zeros, count = 0 := by
      simp only [List.map_map, List.forall_mem_map]
      exact fun condition hcondition => (h condition hcondition).zeros_sql
    have hchain : Sql.zeros (Sql.separated " AND " ((first :: rest).map (·.sql))) = 0 := by
      rw [Sql.zeros_separated (by decide), List.sum_eq_zero hall]
    simp only [groupSql, Sql.zeros_text, Sql.zeros_append, hchain]
    simp

theorem sum_zeros_groupSql {groups : List (List Condition)}
    (h : ∀ group ∈ groups, ∀ condition ∈ group, condition.IsLive) :
    ((groups.map groupSql).map Sql.zeros).sum = groups.countP (·.isEmpty) := by
  induction groups with
  | nil => rfl
  | cons group rest ih =>
    obtain ⟨hgroup, hrest⟩ := List.forall_mem_cons.mp h
    simp only [List.map_cons, List.sum_cons, ih hrest, zeros_groupSql hgroup, List.countP_cons]
    exact Nat.add_comm _ _

/-- The constant stands for the groups without conditions, or for there being no groups. -/
theorem zeros_whereSql {s : Selection}
    (h : ∀ group ∈ s.groups, ∀ condition ∈ group, condition.IsLive) :
    s.whereSql.zeros = if s.groups = [] then 1 else s.groups.countP (·.isEmpty) := by
  rw [whereSql, Sql.zeros_text, ← sum_zeros_groupSql h]
  split
  case h_1 hnone => simp [hnone]
  case h_2 hsome =>
    have hne : s.groups ≠ [] := hsome
    simp [Sql.zeros_separated, hne]

section Compiled

variable {e : Expression}

theorem isLive_of_typed (h : ∀ p ∈ e.groups.flatten, p.Typed) (joins : Joins)
    (order : SortOrder) (now : Instant) :
    ∀ group ∈ (ofExpression e joins order now).groups, ∀ condition ∈ group, condition.IsLive := by
  intro _ hgroup _ hcondition
  obtain ⟨group, hmem, rfl⟩ := List.mem_map.mp hgroup
  obtain ⟨p, hp, rfl⟩ := List.mem_map.mp hcondition
  exact (h p (List.mem_flatten_of_mem hmem hp)).isLive now

/-- What is rendered of an expression: no predicate as a constant, no window as a count. -/
structure Faithful (e : Expression) (s : Selection) : Prop where
  zeros : s.whereSql.zeros = if e.groups = [] then 1 else e.groups.countP (·.isEmpty)
  live : ∀ group ∈ s.groups, ∀ condition ∈ group, condition.IsLive
  anchored : ∀ value ∈ s.whereSql.arguments, ∀ count, value ≠ .integer count

theorem faithful_of_typed (h : ∀ p ∈ e.groups.flatten, p.Typed) (joins : Joins)
    (order : SortOrder) (now : Instant) : Faithful e (ofExpression e joins order now) := by
  have hlive := isLive_of_typed h joins order now
  constructor
  case zeros =>
    rw [zeros_whereSql hlive]
    simp only [ofExpression, List.map_eq_nil_iff, List.countP_map]
    simp [Function.comp_def]
  case live => exact hlive
  case anchored =>
    intro value hvalue count
    rw [arguments_whereSql] at hvalue
    obtain ⟨condition, hcondition, hvalue⟩ := List.mem_flatMap.mp hvalue
    obtain ⟨_, hgroup, hmem⟩ := List.mem_flatten.mp hcondition
    obtain ⟨group, hg, rfl⟩ := List.mem_map.mp hgroup
    obtain ⟨p, hp, rfl⟩ := List.mem_map.mp hmem
    rw [Predicate.arguments_condition] at hvalue
    exact (h p (List.mem_flatten_of_mem hg hp)).bound_ne_integer now hvalue count

end Compiled

end Selection

namespace GroupRecord

/-- What compiles is typed, and all that can be wrong with a rule of the right shape is a value.
So no predicate of a compiled list of groups, of which those at fault are left out or not, is
rendered as a constant, and no window as a count. -/
theorem compiled_predicates_typed :
    (∀ (record : RuleRecord) (p : Predicate), record.compile = .ok p → p.Typed) ∧
    (∀ (record : RuleRecord) (rule : Rule) (fault : RuleError),
      Rule.ofRecord record = .ok rule → rule.compile = .error fault →
        ∃ raw ∈ record.values, ∃ expected, rule.operator.Misses rule.field raw expected ∧
          fault = .unreadable raw expected) ∧
    ∀ (user : Int) (groups : List GroupRecord) (e : Expression),
      e = (compile user groups).1 ∨ compileStrict user groups = .ok e →
        (∀ p ∈ e.groups.flatten, p.Typed) ∧
        ∀ (joins : Joins) (order : SortOrder) (now : Instant),
          Selection.Faithful e (.ofExpression e joins order now) := by
  refine ⟨fun _ _ => RuleRecord.typed_of_compile, fun _ _ _ => Rule.compile_fault, ?_⟩
  intro user groups e he
  have hcompiled : e = (compile user groups).1 := by
    rcases he with rfl | hstrict
    · rfl
    · exact (compileStrict_eq_ok.mp hstrict).2
  subst hcompiled
  have htyped : ∀ p ∈ (compile user groups).1.groups.flatten, p.Typed :=
    fun p => typed_of_mem_compile
  exact ⟨htyped, Selection.faithful_of_typed htyped⟩

def onTitle (operator : String) (value : Json) : RuleRecord :=
  ⟨none, .named "title", operator, [value]⟩

/-- A title that contains a letter, or that is null, which no title can be. -/
def halfReadable : List GroupRecord :=
  [⟨none, [onTitle "contains" (.string "A")]⟩, ⟨none, [onTitle "is" .null]⟩]

theorem compiled_predicates_typed_halfReadable :
    (∃ p, (onTitle "contains" (.string "A")).compile = .ok p ∧ p.Typed) ∧
    (∃ rule fault, Rule.ofRecord (onTitle "is" .null) = .ok rule ∧
      rule.compile = .error fault ∧ ∃ raw expected, fault = .unreadable raw expected) ∧
    Selection.Faithful (compile 1 halfReadable).1
      (.ofExpression (compile 1 halfReadable).1 .none .byTitle ⟨0, 0⟩) := by
  have hcontains : (onTitle "contains" (.string "A")).compile =
      .ok ⟨.title, .contains, [.pattern (.ofLiteral .contains "A")], .none⟩ := rfl
  have his : Rule.ofRecord (onTitle "is" .null) = .ok ⟨none, .title, .is, [.null]⟩ := rfl
  have hnull : Rule.compile ⟨none, .title, .is, [.null]⟩ =
      .error (.unreadable .null (.value .text)) := rfl
  obtain ⟨htyped, hfault, hrendered⟩ := compiled_predicates_typed
  obtain ⟨raw, -, expected, -, hvalue⟩ := hfault _ _ _ his hnull
  exact ⟨⟨_, hcontains, htyped _ _ hcontains⟩, ⟨_, _, his, hnull, raw, expected, hvalue⟩,
    (hrendered 1 halfReadable _ (.inl rfl)).2 .none .byTitle ⟨0, 0⟩⟩

end GroupRecord

end Setlist
