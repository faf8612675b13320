import Mathlib.Data.List.Forall2
import Setlist.Catalogue.Evaluate
import Setlist.Proofs.Query.Limits

/-! # Places of a query

A query says where a value stands by a question mark, and never which value. Its text follows
from the fields, the operators and the numbers of values alone, and the n-th question mark
stands for the n-th value.
-/

namespace Setlist

namespace Sql

@[simp] theorem text_nil : text [] = "" := rfl

@[simp] theorem text_cons (piece : Piece) (sql : Sql) :
    text (piece :: sql) = Sql.piece piece ++ text sql := by
  simp [text, String.join_cons]

@[simp] theorem text_append (sql more : Sql) : text (sql ++ more) = text sql ++ text more := by
  simp [text, String.join_append]

@[simp] theorem arguments_append (sql more : Sql) :
    arguments (sql ++ more) = arguments sql ++ arguments more :=
  List.filterMap_append

@[simp] theorem arguments_text (text : String) (sql : Sql) :
    arguments (.text text :: sql) = arguments sql := rfl

@[simp] theorem arguments_bind (value : Datum) (sql : Sql) :
    arguments (.bind value :: sql) = value :: arguments sql := rfl

def IsPlain (sql : Sql) : Prop := ∀ text, .text text ∈ sql → '?' ∉ text.toList

/-- Up to any point of the query there are as many question marks as values. -/
def IsPlaced (sql : Sql) : Prop :=
  ∀ part : Sql, part <+: sql → part.text.toList.count '?' = part.arguments.length

@[simp] theorem isPlain_nil : IsPlain [] := fun _ h => nomatch h

@[simp] theorem isPlain_text {text : String} {sql : Sql} :
    IsPlain (.text text :: sql) ↔ '?' ∉ text.toList ∧ IsPlain sql := by
  simp [IsPlain]

@[simp] theorem isPlain_bind {value : Datum} {sql : Sql} :
    IsPlain (.bind value :: sql) ↔ IsPlain sql := by
  simp [IsPlain]

@[simp] theorem isPlain_append {sql more : Sql} :
    IsPlain (sql ++ more) ↔ IsPlain sql ∧ IsPlain more := by
  simp only [IsPlain, List.mem_append, or_imp, forall_and]

theorem isPlain_separated {separator : String} (hseparator : '?' ∉ separator.toList) :
    ∀ {all : List Sql}, (∀ sql ∈ all, IsPlain sql) → IsPlain (separated separator all)
  | [], _ => isPlain_nil
  | [sql], h => h sql List.mem_cons_self
  | sql :: next :: rest, h => by
    obtain ⟨hsql, hrest⟩ := List.forall_mem_cons.mp h
    exact isPlain_append.mpr
      ⟨hsql, isPlain_text.mpr ⟨hseparator, isPlain_separated hseparator hrest⟩⟩

theorem IsPlain.count_text {sql : Sql} (h : sql.IsPlain) :
    sql.text.toList.count '?' = sql.arguments.length := by
  induction sql with
  | nil => rfl
  | cons piece rest ih =>
    cases piece with
    | text text =>
      obtain ⟨htext, hrest⟩ := isPlain_text.mp h
      simp [Sql.piece, List.count_eq_zero_of_not_mem htext, ih hrest]
    | bind value =>
      have hrest := ih (isPlain_bind.mp h)
      simp [Sql.piece, hrest]

theorem IsPlain.isPlaced {sql : Sql} (h : sql.IsPlain) : sql.IsPlaced := by
  intro part hpart
  exact IsPlain.count_text fun text htext => h text (hpart.subset htext)

theorem text_separated {separator : String} {all others : List Sql}
    (h : List.Forall₂ (fun sql other => text sql = text other) all others) :
    text (separated separator all) = text (separated separator others) := by
  induction h with
  | nil => rfl
  | cons hfirst hrest ih =>
    cases hrest with
    | nil => exact hfirst
    | cons => simp only [separated, text_append, text_cons, hfirst, ih]

theorem arguments_separated (separator : String) :
    ∀ all : List Sql, arguments (separated separator all) = all.flatMap arguments
  | [] => rfl
  | [sql] => by simp [separated]
  | sql :: next :: rest => by
    rw [separated, arguments_append, arguments_text, arguments_separated separator (next :: rest)]
    rfl

end Sql

theorem Field.column_plain (field : Field) : '?' ∉ field.column.toList := by
  cases field <;> decide

theorem Condition.isPlain_sql (condition : Condition) : condition.sql.IsPlain := by
  have hcolumn := Field.column_plain
  induction condition <;> simp_all +decide [sql]

namespace Predicate

/-- The predicates ask the same of one field, of maybe other values. -/
structure Alike (p q : Predicate) : Prop where
  field : p.field = q.field
  operator : p.operator = q.operator
  count : p.values.length = q.values.length

def IsJoined (p : Predicate) : Prop := p.joins = .ofOption p.field.relation

def bound (now : Instant) (p : Predicate) : List Datum :=
  if p.values.length ≠ p.operator.arity then []
  else match p.operator.operand with
    | .fieldValue => p.values.map (·.datum)
    | .unitCount => p.values.flatMap fun value =>
      [.text (Timestamp.format (value.windowStart now)), .text (Timestamp.format now)]

theorem condition_of_wrongCount {p : Predicate} (h : p.values.length ≠ p.operator.arity)
    (now : Instant) : p.condition now = .never := if_pos h

theorem condition_of_count {p : Predicate} (h : p.values.length = p.operator.arity)
    (now : Instant) : p.condition now =
      if p.operator.isNegated then .absentOr p.field (p.comparison now) else p.comparison now :=
  if_neg (not_not.mpr h)

theorem text_equality (field : Field) (value other : Value) :
    (equality field value).sql.text = (equality field other).sql.text := by
  unfold equality
  cases field.type <;> rfl

theorem Alike.text_comparison {p q : Predicate} (h : p.Alike q)
    (hcount : p.values.length = p.operator.arity) (now later : Instant) :
    (p.comparison now).sql.text = (q.comparison later).sql.text := by
  obtain ⟨field, operator, values, _⟩ := p
  obtain ⟨_, _, others, _⟩ := q
  obtain ⟨rfl, rfl, hsame⟩ := h
  have hother : others.length = operator.arity := hsame.symm.trans hcount
  cases operator with
  | isBetween =>
    obtain ⟨_, _, rfl⟩ := List.length_eq_two.mp hcount
    obtain ⟨_, _, rfl⟩ := List.length_eq_two.mp hother
    rfl
  | is =>
    obtain ⟨value, rfl⟩ := List.length_eq_one_iff.mp hcount
    obtain ⟨other, rfl⟩ := List.length_eq_one_iff.mp hother
    exact text_equality field value other
  | isNot =>
    obtain ⟨value, rfl⟩ := List.length_eq_one_iff.mp hcount
    obtain ⟨other, rfl⟩ := List.length_eq_one_iff.mp hother
    simp only [comparison, Condition.sql, Sql.text_cons, Sql.text_append,
      text_equality field value other]
  | _ =>
    obtain ⟨_, rfl⟩ := List.length_eq_one_iff.mp hcount
    obtain ⟨_, rfl⟩ := List.length_eq_one_iff.mp hother
    rfl

theorem Alike.text_condition {p q : Predicate} (h : p.Alike q) (now later : Instant) :
    (p.condition now).sql.text = (q.condition later).sql.text := by
  by_cases hcount : p.values.length = p.operator.arity
  · have hother : q.values.length = q.operator.arity := by rw [← h.count, hcount, h.operator]
    have hcomparison := h.text_comparison hcount now later
    rw [condition_of_count hcount, condition_of_count hother, h.operator, h.field]
    split
    case isTrue => simp only [Condition.sql, Sql.text_cons, Sql.text_append, hcomparison]
    case isFalse => exact hcomparison
  · have hother : q.values.length ≠ q.operator.arity := by rwa [← h.count, ← h.operator]
    rw [condition_of_wrongCount hcount, condition_of_wrongCount hother]

theorem arguments_equality (field : Field) (value : Value) :
    (equality field value).sql.arguments = [value.datum] := by
  unfold equality
  cases field.type <;> rfl

theorem arguments_comparison {p : Predicate} (hcount : p.values.length = p.operator.arity)
    (now : Instant) : (p.comparison now).sql.arguments = p.bound now := by
  rw [bound, if_neg (not_not.mpr hcount)]
  obtain ⟨field, operator, values, _⟩ := p
  cases operator with
  | isBetween =>
    obtain ⟨_, _, rfl⟩ := List.length_eq_two.mp hcount
    rfl
  | is =>
    obtain ⟨value, rfl⟩ := List.length_eq_one_iff.mp hcount
    exact arguments_equality field value
  | isNot =>
    obtain ⟨value, rfl⟩ := List.length_eq_one_iff.mp hcount
    exact (Sql.arguments_wrapped _ _ _).trans (arguments_equality field value)
  | _ =>
    obtain ⟨_, rfl⟩ := List.length_eq_one_iff.mp hcount
    rfl

theorem arguments_condition (p : Predicate) (now : Instant) :
    (p.condition now).sql.arguments = p.bound now := by
  by_cases hcount : p.values.length = p.operator.arity
  · rw [condition_of_count hcount, ← arguments_comparison hcount]
    split
    case isTrue => exact Sql.arguments_wrapped _ _ _
    case isFalse => rfl
  · rw [condition_of_wrongCount hcount, bound, if_pos hcount]
    rfl

end Predicate

/-- The groups hold predicates that are alike, place by place. -/
def SameShape (groups others : List (List Predicate)) : Prop :=
  List.Forall₂ (List.Forall₂ Predicate.Alike) groups others

theorem SameShape.joins_eq {groups others : List (List Predicate)} (h : SameShape groups others)
    (hgroups : ∀ p ∈ groups.flatten, p.IsJoined) (hothers : ∀ p ∈ others.flatten, p.IsJoined) :
    groups.flatten.map (·.joins) = others.flatten.map (·.joins) := by
  have hfields : List.Forall₂ Eq (groups.flatten.map fun p => Joins.ofOption p.field.relation)
      (others.flatten.map fun p => Joins.ofOption p.field.relation) :=
    List.rel_map (fun _ _ halike => by rw [halike.field]) (List.rel_flatten h)
  rw [List.forall₂_eq_eq_eq] at hfields
  rw [List.map_congr_left hgroups, List.map_congr_left hothers, hfields]

namespace Selection

/-- The queries of the selections differ in their values at most. -/
structure SameText (s t : Selection) : Prop where
  relations : s.fromSql.text = t.fromSql.text
  conditions : s.whereSql.text = t.whereSql.text
  order : s.orderSql.text = t.orderSql.text

theorem text_joinSql (user viewer : Int) (relation : Relation) :
    (joinSql user relation).text = (joinSql viewer relation).text := by
  cases relation <;> rfl

theorem text_fromSql {s t : Selection} (h : s.joins = t.joins) :
    s.fromSql.text = t.fromSql.text := by
  have hjoins : ∀ relations : List Relation, Sql.text (relations.flatMap (joinSql s.user)) =
      Sql.text (relations.flatMap (joinSql t.user)) := by
    intro relations
    induction relations with
    | nil => rfl
    | cons relation rest ih =>
      simp only [List.flatMap_cons, Sql.text_append, ih, text_joinSql s.user t.user]
  rw [fromSql, fromSql, Sql.text_cons, Sql.text_cons, h, hjoins]

theorem text_groupSql {group other : List Condition}
    (h : List.Forall₂ (fun a b : Condition => a.sql.text = b.sql.text) group other) :
    (groupSql group).text = (groupSql other).text := by
  have hall : Sql.text (Sql.separated " AND " (group.map (·.sql))) =
      Sql.text (Sql.separated " AND " (other.map (·.sql))) :=
    Sql.text_separated (List.forall₂_map_left_iff.mpr (List.forall₂_map_right_iff.mpr h))
  cases h with
  | nil => rfl
  | cons => simp only [groupSql, Sql.text_cons, Sql.text_append, hall]

theorem text_whereSql {s t : Selection} (h : List.Forall₂
    (List.Forall₂ fun a b : Condition => a.sql.text = b.sql.text) s.groups t.groups) :
    s.whereSql.text = t.whereSql.text := by
  have hall : Sql.text (Sql.separated " OR " (s.groups.map groupSql)) =
      Sql.text (Sql.separated " OR " (t.groups.map groupSql)) :=
    Sql.text_separated (List.forall₂_map_left_iff.mpr (List.forall₂_map_right_iff.mpr
      (h.imp fun _ _ => text_groupSql)))
  obtain ⟨joins, user, groups, order⟩ := s
  obtain ⟨_, _, others, _⟩ := t
  cases h with
  | nil => rfl
  | cons => simp only [whereSql, Sql.text_cons, hall]

/-- Neither the users nor the instants nor the values of predicates show in the text. -/
theorem sameText_of_sameShape {e f : Expression} (h : SameShape e.groups f.groups)
    {joins others : Joins} (hjoins : joins = others) (order : SortOrder) (now later : Instant) :
    (ofExpression e joins order now).SameText (ofExpression f others order later) where
  relations := text_fromSql hjoins
  conditions :=
    text_whereSql (List.rel_map (List.rel_map fun _ _ halike => halike.text_condition now later) h)
  order := rfl

theorem isPlain_joinSql (user : Int) (relation : Relation) : (joinSql user relation).IsPlain := by
  cases relation <;> simp +decide [joinSql]

theorem isPlain_fromSql (s : Selection) : s.fromSql.IsPlain := by
  refine Sql.isPlain_text.mpr ⟨by decide, fun text htext => ?_⟩
  obtain ⟨relation, -, hrelation⟩ := List.mem_flatMap.mp htext
  exact isPlain_joinSql s.user relation text hrelation

theorem isPlain_groupSql : ∀ group : List Condition, (groupSql group).IsPlain
  | [] => by simp +decide [groupSql]
  | first :: rest => by
    have hall : Sql.IsPlain (Sql.separated " AND " ((first :: rest).map (·.sql))) :=
      Sql.isPlain_separated (by decide)
        (List.forall_mem_map.mpr fun condition _ => condition.isPlain_sql)
    have hclosing : Sql.IsPlain [.text ")"] := by simp +decide
    exact Sql.isPlain_text.mpr ⟨by decide, Sql.isPlain_append.mpr ⟨hall, hclosing⟩⟩

theorem isPlain_whereSql (s : Selection) : s.whereSql.IsPlain := by
  refine Sql.isPlain_text.mpr ⟨by decide, ?_⟩
  split
  case h_1 => simp +decide
  case h_2 =>
    exact Sql.isPlain_separated (by decide)
      (List.forall_mem_map.mpr fun group _ => isPlain_groupSql group)

theorem isPlain_orderSql (s : Selection) : s.orderSql.IsPlain := by
  have hcolumn := s.order.field.column_plain
  cases hdirection : s.order.direction <;>
    simp +decide [orderSql, hdirection, Direction.keyword, hcolumn]

theorem isPlain_sql (s : Selection) : s.sql.IsPlain := by
  refine Sql.isPlain_text.mpr ⟨by decide, ?_⟩
  exact Sql.isPlain_append.mpr
    ⟨Sql.isPlain_append.mpr ⟨s.isPlain_fromSql, s.isPlain_whereSql⟩, s.isPlain_orderSql⟩

theorem arguments_fromSql (s : Selection) : s.fromSql.arguments =
    if s.joins.interaction then [.integer s.user] else [] := by
  obtain ⟨⟨album, artist, interaction⟩, user, groups, order⟩ := s
  cases album <;> cases artist <;> cases interaction <;> rfl

theorem arguments_groupSql : ∀ group : List Condition,
    (groupSql group).arguments = group.flatMap (·.sql.arguments)
  | [] => rfl
  | first :: rest => by
    rw [groupSql, Sql.arguments_wrapped, Sql.arguments_separated, List.flatMap_map]
    exact List.cons_ne_nil _ _

theorem arguments_whereSql (s : Selection) :
    s.whereSql.arguments = s.groups.flatten.flatMap (·.sql.arguments) := by
  rw [whereSql, Sql.arguments_text]
  split
  case h_1 hgroups =>
    rw [hgroups]
    rfl
  case h_2 =>
    rw [Sql.arguments_separated, List.flatMap_map, List.flatMap_def, List.flatMap_def,
      List.map_flatten, List.flatten_flatten]
    simp only [arguments_groupSql, List.flatMap_def, List.map_map, Function.comp_def]

/-- The values stand in the order of the question marks, and there are no others. -/
structure Binds (s : Selection) (values : List Datum) : Prop where
  arguments : s.sql.arguments = values
  count : s.sql.text.toList.count '?' = values.length
  placed : s.sql.IsPlaced

/-- A query binds its user, if the interactions are joined, and then the values of the
predicates in their order. -/
theorem binds_ofExpression (e : Expression) (joins : Joins) (order : SortOrder) (now : Instant) :
    (ofExpression e joins order now).Binds
      ((if joins.interaction then [.integer e.user] else []) ++
        e.groups.flatten.flatMap (·.bound now)) := by
  have horder : (ofExpression e joins order now).orderSql.arguments = [] := rfl
  have hconditions : (ofExpression e joins order now).groups.flatten =
      e.groups.flatten.map (·.condition now) := List.map_flatten.symm
  have harguments : (ofExpression e joins order now).sql.arguments =
      (if joins.interaction then [.integer e.user] else []) ++
        e.groups.flatten.flatMap (·.bound now) := by
    rw [sql, Sql.arguments_text, Sql.arguments_append, Sql.arguments_append, arguments_fromSql,
      arguments_whereSql, horder, hconditions, List.append_nil, List.flatMap_map]
    simp only [Predicate.arguments_condition]
    rfl
  have hplain := (ofExpression e joins order now).isPlain_sql
  exact ⟨harguments, harguments ▸ hplain.count_text, hplain.isPlaced⟩

end Selection

namespace Catalogue

variable {groups others : List (List Predicate)}

/-- No value of a rule reaches the text of a query: for expressions of one shape, whoever asks
and whenever, the counting and the listing query are the same texts. Every query has as many
question marks as values, in one order: the user first, if the interactions are joined, and then
what each predicate binds. -/
theorem query_text_hides_values (hshape : SameShape groups others)
    (hgroups : ∀ p ∈ groups.flatten, p.IsJoined) (hothers : ∀ p ∈ others.flatten, p.IsJoined)
    (user viewer : Int) (order : SortOrder) (now later : Instant) :
    (counting (.ofGroups user groups) order now).SameText
        (counting (.ofGroups viewer others) order later) ∧
      (listing (.ofGroups user groups) order now).SameText
        (listing (.ofGroups viewer others) order later) ∧
      ∀ (e : Expression) (joins : Joins) (order : SortOrder) (now : Instant),
        (Selection.ofExpression e joins order now).Binds
          ((if joins.interaction then [.integer e.user] else []) ++
            e.groups.flatten.flatMap (·.bound now)) := by
  have hjoins : (Expression.ofGroups user groups).joins =
      (Expression.ofGroups viewer others).joins :=
    congrArg Joins.unions (hshape.joins_eq hgroups hothers)
  refine ⟨?_, ?_, Selection.binds_ofExpression⟩
  · exact Selection.sameText_of_sameShape hshape hjoins order now later
  · exact Selection.sameText_of_sameShape hshape (by rw [hjoins]) order now later

def playedOften (text : String) (count : Binary64) : List (List Predicate) :=
  [[⟨.title, .contains, [.pattern (.ofLiteral .contains text)], .none⟩,
    ⟨.playCount, .isGreaterThan, [.number count], .single .interaction⟩]]

theorem query_text_hides_values_playedOften :
    SameShape (playedOften "?" (.ofInt 1)) (playedOften "' OR 1 --" (.ofInt 2)) ∧
      (listing (.ofGroups 1 (playedOften "?" (.ofInt 1))) .byTitle ⟨0, 0⟩).SameText
        (listing (.ofGroups 2 (playedOften "' OR 1 --" (.ofInt 2))) .byTitle ⟨60, 0⟩) := by
  have hjoined (text : String) (count : Binary64) :
      ∀ p ∈ (playedOften text count).flatten, p.IsJoined := by
    simp [playedOften, Predicate.IsJoined, Field.relation, Joins.ofOption]
  have hshape (text other : String) (count most : Binary64) :
      SameShape (playedOften text count) (playedOften other most) :=
    .cons (.cons ⟨rfl, rfl, rfl⟩ (.cons ⟨rfl, rfl, rfl⟩ .nil)) .nil
  exact ⟨hshape _ _ _ _, (query_text_hides_values (hshape _ _ _ _) (hjoined _ _) (hjoined _ _) 1 2
    .byTitle ⟨0, 0⟩ ⟨60, 0⟩).2.1⟩

end Catalogue

end Setlist
