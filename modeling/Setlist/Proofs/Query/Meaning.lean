import Setlist.Proofs.Query.Precedence
import Setlist.Proofs.Query.Truth

/-! # What the text of a selection means

The conditions of a selection are written out and read back: the term that the database finds
in the text has the truth of the selection on every row.
-/

namespace Setlist

open Parsing

namespace Field

def term : Field → Term
  | playCount => .callTwo "COALESCE" (.name "i.play_count") (.datum (some (.integer 0)))
  | field => .name field.column

theorem isOperand (field : Field) : IsOperand field.tokens field.term := by
  intro stack
  cases field <;> rfl

theorem value_term (field : Field) (row : Row) : field.term.value row.named = row.cell field := by
  cases field with
  | playCount =>
    rw [term, Term.value, if_pos rfl, Term.value, Term.value, Row.cell]
    cases hinteraction : row.interaction <;> simp [Row.named, hinteraction]
  | _ => rfl

end Field

namespace Condition

def term : Condition → Term
  | never => .datum (some (.integer 0))
  | equal field value => .compare .equal field.term (.datum (some value))
  | sameDay field value =>
    .compare .equal (.call "date" field.term) (.call "date" (.datum (some value)))
  | like field pattern =>
    .like false field.term (.datum (some pattern)) (.datum (some (.text "\\")))
  | notLike field pattern =>
    .like true field.term (.datum (some pattern)) (.datum (some (.text "\\")))
  | greater field value => .compare .greater field.term (.datum (some value))
  | less field value => .compare .less field.term (.datum (some value))
  | between field low high => .between field.term (.datum (some low)) (.datum (some high))
  | within field low high =>
    .and (.compare .atLeast field.term (.datum (some low)))
      (.compare .atMost field.term (.datum (some high)))
  | outside field low high =>
    .or (.compare .less field.term (.datum (some low)))
      (.compare .greater field.term (.datum (some high)))
  | negation condition => .not condition.term
  | absentOr field condition => .or (.is field.term (.datum none)) condition.term

theorem reads (condition : Condition) : Reads 2 condition.tokens condition.term := by
  have hbound (field : Field) (sign : Sign) (value : Datum) :
      Reads 2 (field.tokens ++ [.sign sign, .datum (some value)])
        (.compare sign field.term (.datum (some value))) :=
    field.isOperand.compare sign (.datum _)
  induction condition with
  | never => exact (IsOperand.datum _).reads
  | equal field value => exact hbound field .equal value
  | sameDay field value =>
    exact (field.isOperand.call "date").compare .equal ((IsOperand.datum _).call "date")
  | like field pattern => exact field.isOperand.like (.datum _) (.datum _)
  | notLike field pattern => exact field.isOperand.unlike (.datum _) (.datum _)
  | greater field value => exact hbound field .greater value
  | less field value => exact hbound field .less value
  | between field low high => exact field.isOperand.between (.datum _) (.datum _)
  | within field low high =>
    have hboth := ((hbound field .atLeast low).mono (Nat.le_succ 1)).and (hbound field .atMost high)
    exact (IsOperand.enclosed (hboth.mono (Nat.zero_le 1))).reads
  | outside field low high =>
    have heither := ((hbound field .less low).mono (Nat.zero_le 2)).or
      ((hbound field .greater high).mono (Nat.le_succ 1))
    exact (IsOperand.enclosed heither).reads
  | negation condition ih => exact (IsOperand.enclosed (ih.mono (Nat.zero_le 2))).not
  | absentOr field condition ih =>
    have habsent := field.isOperand.is (.datum none)
    exact (IsOperand.enclosed ((habsent.mono (Nat.zero_le 2)).or (ih.mono (Nat.le_succ 1)))).reads

end Condition

namespace Term

theorem truthOf_ofTruth : ∀ truth : Truth, truthOf (ofTruth truth) = truth
  | none => rfl
  | some true => rfl
  | some false => rfl

variable {read : String → Cell}

theorem truth_not (term : Term) : (not term).truth read = (term.truth read).not :=
  truthOf_ofTruth _

theorem truth_and (left right : Term) :
    (and left right).truth read = (left.truth read).and (right.truth read) :=
  truthOf_ofTruth _

theorem truth_or (left right : Term) :
    (or left right).truth read = (left.truth read).or (right.truth read) :=
  truthOf_ofTruth _

theorem truth_compare (sign : Sign) (left right : Term) :
    (compare sign left right).truth read =
      comparison sign (left.value read) (right.value read) :=
  truthOf_ofTruth _

theorem truth_like (negated : Bool) (value : Term) (pattern : Datum) :
    (like negated value (datum (some pattern)) (datum (some (.text "\\")))).truth read =
      if negated then (Condition.fits (value.value read) pattern).not
      else Condition.fits (value.value read) pattern :=
  truthOf_ofTruth _

theorem truth_between (value : Term) (low high : Datum) :
    (between value (datum (some low)) (datum (some high))).truth read =
      (comparison .atLeast (value.value read) (some low)).and
        (comparison .atMost (value.value read) (some high)) :=
  truthOf_ofTruth _

theorem truth_is_null (term : Term) :
    (is term (datum none)).truth read = some (term.value read).isNone := by
  rw [truth, value, truthOf_ofTruth]
  cases term.value read <;> rfl

theorem truth_foldl {link : Term → Term → Term} {connect : Truth → Truth → Truth}
    (hlink : ∀ left right, (link left right).truth read =
      connect (left.truth read) (right.truth read)) (first : Term) (rest : List Term) :
    (rest.foldl link first).truth read =
      (rest.map (·.truth read)).foldl connect (first.truth read) := by
  induction rest generalizing first with
  | nil => rfl
  | cons next rest ih => rw [List.foldl_cons, ih, hlink, List.map_cons, List.foldl_cons]

end Term

namespace Condition

theorem comparison_day {a b : Cell} :
    Term.comparison .equal (a.bind day) (b.bind day) =
      match a.bind day, b.bind day with
      | some stored, some bound => some (stored == bound)
      | _, _ => none := by
  have htext : ∀ {cell : Cell} {value : Datum}, cell.bind day = some value →
      ∃ text, value = .text text := by
    intro cell value hday
    obtain ⟨stored, -, hstored⟩ := Option.bind_eq_some_iff.mp hday
    match stored, hstored with
    | .text _, hstored =>
      obtain ⟨text, -, rfl⟩ := Option.map_eq_some_iff.mp hstored
      exact ⟨text, rfl⟩
  cases hbound : b.bind day with
  | none => cases a.bind day <;> rfl
  | some bound =>
    cases hstored : a.bind day with
    | none => rfl
    | some stored =>
      obtain ⟨left, rfl⟩ := htext hstored
      obtain ⟨right, rfl⟩ := htext hbound
      have halike : (compare left right == .eq) = (Datum.text left == .text right) := by
        rw [Bool.eq_iff_iff, beq_iff_eq, beq_iff_eq, Std.compare_eq_iff_eq, Datum.text.injEq]
      exact congrArg some halike

/-- On a row, the term of a condition has the truth of the condition. -/
theorem truth_term (condition : Condition) (row : Row) :
    condition.term.truth row.named = condition.truth row.cell := by
  induction condition with
  | never => rfl
  | equal field value => rw [term, Term.truth_compare, field.value_term]; rfl
  | sameDay field value =>
    rw [term, Term.truth_compare, Term.value, if_pos rfl, Term.value, if_pos rfl,
      field.value_term, comparison_day]
    rfl
  | like field pattern => rw [term, Term.truth_like, field.value_term]; rfl
  | notLike field pattern => rw [term, Term.truth_like, field.value_term]; rfl
  | greater field value => rw [term, Term.truth_compare, field.value_term]; rfl
  | less field value => rw [term, Term.truth_compare, field.value_term]; rfl
  | between field low high => rw [term, Term.truth_between, field.value_term]; rfl
  | within field low high =>
    rw [term, Term.truth_and, Term.truth_compare, Term.truth_compare, field.value_term]
    rfl
  | outside field low high =>
    rw [term, Term.truth_or, Term.truth_compare, Term.truth_compare, field.value_term]
    rfl
  | negation condition ih => rw [term, Term.truth_not, ih, truth]
  | absentOr field condition ih =>
    rw [term, Term.truth_or, Term.truth_is_null, field.value_term, ih, truth]

end Condition

namespace Selection

def groupTokens : List Condition → List Token
  | [] => [.datum (some (.integer 0))]
  | first :: rest => Token.enclosed (first.tokens ++ rest.flatMap (.and :: ·.tokens))

def groupTerm : List Condition → Term
  | [] => .datum (some (.integer 0))
  | first :: rest => (rest.map (·.term)).foldl .and first.term

theorem tokens_groupSql : ∀ group : List Condition, (groupSql group).tokens = groupTokens group
  | [] => (by decide +kernel : Sql.tokens [.text "0"] = [.datum (some (.integer 0))])
  | first :: rest => by
    have hopening : Token.Ends ("(".toList.map .inl) := ⟨[], '(', rfl, .inr rfl⟩
    have hend : Token.Ends (" AND ".toList.map .inl) :=
      ⟨" AND".toList.map .inl, ' ', rfl, .inl rfl⟩
    have hwords : Sql.wordTokens "(" = [.opening] := by decide +kernel
    have hand : Sql.wordTokens " AND " = [.and] := by decide +kernel
    have hclosing : Sql.tokens [.text ")"] = [.closing] := by decide +kernel
    rw [groupSql, Sql.tokens_cons_text hopening, Sql.tokens_append Condition.starts_closing,
      List.map_cons, Sql.tokens_separated hand (.inl rfl) hend, hwords, hclosing]
    · simp only [Condition.tokens_sql, List.flatMap_map]
      rfl
    · exact List.cons_ne_nil _ _

theorem isOperand_group : ∀ group : List Condition,
    IsOperand (groupTokens group) (groupTerm group)
  | [] => .datum _
  | first :: rest =>
    have hrest : ∀ condition ∈ rest, Reads 2 condition.tokens condition.term :=
      fun condition _ => condition.reads
    .enclosed ((Reads.chain .and hrest (first.reads.mono (Nat.le_succ 1))).mono (Nat.zero_le 1))

theorem truth_groupTerm (row : Row) : ∀ group : List Condition,
    (groupTerm group).truth row.named = groupTruth row group
  | [] => rfl
  | first :: rest => by
    rw [groupTerm, Term.truth_foldl Term.truth_and, groupTruth_cons]
    simp only [List.map_map, Function.comp_def, Condition.truth_term]

def tokens (s : Selection) : List Token :=
  match s.groups with
  | [] => [.datum (some (.integer 0))]
  | first :: rest => groupTokens first ++ rest.flatMap (.or :: groupTokens ·)

def term (s : Selection) : Term :=
  match s.groups with
  | [] => .datum (some (.integer 0))
  | first :: rest => (rest.map groupTerm).foldl .or (groupTerm first)

theorem tokens_whereSql (s : Selection) : s.whereSql.tokens = .name "WHERE" :: s.tokens := by
  have hwhereEnd : Token.Ends (" WHERE ".toList.map .inl) :=
    ⟨" WHERE".toList.map .inl, ' ', rfl, .inl rfl⟩
  have horEnd : Token.Ends (" OR ".toList.map .inl) := ⟨" OR".toList.map .inl, ' ', rfl, .inl rfl⟩
  have hwhere : Sql.wordTokens " WHERE " = [.name "WHERE"] := by decide +kernel
  have hor : Sql.wordTokens " OR " = [.or] := by decide +kernel
  rw [whereSql, Sql.tokens_cons_text hwhereEnd, hwhere, tokens, List.singleton_append]
  cases s.groups with
  | nil => exact congrArg _ (tokens_groupSql [])
  | cons first rest =>
    dsimp only
    rw [List.map_cons, Sql.tokens_separated hor (.inl rfl) horEnd]
    simp only [tokens_groupSql, List.flatMap_map]

theorem reads (s : Selection) : Reads 0 s.tokens s.term := by
  unfold tokens term
  cases s.groups with
  | nil => exact (IsOperand.datum _).reads
  | cons first rest =>
    have hrest : ∀ group ∈ rest, Reads 1 (groupTokens group) (groupTerm group) :=
      fun group _ => (isOperand_group group).reads
    exact .chain .or hrest (isOperand_group first).reads

theorem truth_term (s : Selection) (row : Row) : s.term.truth row.named = s.truth row := by
  unfold term truth
  cases s.groups with
  | nil => rfl
  | cons first rest =>
    dsimp only
    rw [Term.truth_foldl Term.truth_or, truth_cons, truth_groupTerm]
    simp only [List.map_map, Function.comp_def, truth_groupTerm]

end Selection

end Setlist
