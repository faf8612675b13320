import Setlist.Proofs.Cache.Content
import Setlist.Proofs.Rule.Reading

/-! # The verdict on a rule

A rule is accepted when its names are known, its values as many as its operator takes, the
operator fit for the field, every value readable, and a range not descending. Otherwise the
first of these tests that fails, in this order, says what is reported.
-/

namespace Setlist

namespace Field

def HasName (field : Field) (name : String) : Prop :=
  field.name = Text.trim name ∨ field.alternateName = some (Text.trim name)

theorem find?_eq_some {name : String} {field : Field} :
    find? name = some field ↔ field.HasName name := by
  constructor
  · intro h
    simpa [isNamed, HasName] using List.find?_some h
  · rw [find?, HasName]
    generalize Text.trim name = trimmed
    rintro (rfl | h)
    · cases field <;> decide +kernel
    · cases field <;> first | cases h; decide +kernel | cases h

theorem find?_eq_none {name : String} :
    find? name = none ↔ ∀ field : Field, ¬field.HasName name := by
  rw [Option.eq_none_iff_forall_ne_some]
  exact forall_congr' fun field => not_congr find?_eq_some

end Field

namespace Operator

theorem find?_eq_some {name : String} {operator : Operator} :
    find? name = some operator ↔ operator.name = name := by
  constructor
  · intro h
    simpa using List.find?_some h
  · rintro rfl
    cases operator <;> decide +kernel

theorem find?_eq_none {name : String} :
    find? name = none ↔ ∀ operator : Operator, operator.name ≠ name := by
  rw [Option.eq_none_iff_forall_ne_some]
  exact forall_congr' fun operator => not_congr find?_eq_some

/-- The operator compares values of the field's type, and in a unit that the field has. -/
def IsFor (operator : Operator) (field : Field) : Prop :=
  field.type ∈ operator.types ∧ (operator.operand = .unitCount → field.unit.isSome = true)

theorem accepts_iff {operator : Operator} {field : Field} :
    operator.accepts field = true ↔ operator.IsFor field := by
  rw [accepts, IsFor, Bool.and_eq_true, List.contains_iff_mem, Bool.or_eq_true, beq_iff_eq]
  cases operator.operand <;> simp

end Operator

def Value.Descend (values : List Value) : Prop :=
  ∃ low high, values = [low, high] ∧ low.compare? high = some .gt

namespace RuleRecord

/-- All is right with a rule but maybe its values. -/
structure IsFormed (record : RuleRecord) (field : Field) (operator : Operator) : Prop where
  isField : field.HasName record.field.fieldName
  isOperator : operator.name = record.operator
  arity : record.values.length = operator.arity
  isFor : operator.IsFor field

/-- What an accepted rule asks. -/
inductive Accepts (record : RuleRecord) : Predicate → Prop
  | intro {field : Field} {operator : Operator} {values : List Value} :
      record.IsFormed field operator →
      List.Forall₂ (operator.Reads field) record.values values →
      (operator = .isBetween → ¬Value.Descend values) →
      Accepts record ⟨field, operator, values, .ofOption field.relation⟩

/-- The first thing that is wrong with a rule. -/
inductive Rejects (record : RuleRecord) : RuleError → Prop
  | field : (∀ field : Field, ¬field.HasName record.field.fieldName) →
      Rejects record (.unknownField (Text.trim record.field.fieldName))
  | operator {field : Field} : field.HasName record.field.fieldName →
      (∀ operator : Operator, operator.name ≠ record.operator) →
      Rejects record (.unknownOperator record.operator)
  | count {field : Field} {operator : Operator} : field.HasName record.field.fieldName →
      operator.name = record.operator → record.values.length ≠ operator.arity →
      Rejects record (.wrongArity operator record.values.length)
  | unfit {field : Field} {operator : Operator} : field.HasName record.field.fieldName →
      operator.name = record.operator → record.values.length = operator.arity →
      ¬operator.IsFor field → Rejects record (.incompatible operator field)
  | value {field : Field} {operator : Operator} {before after : List Json} {raw : Json}
      {expected : Expected} : record.IsFormed field operator →
      record.values = before ++ raw :: after →
      (∀ earlier ∈ before, ∃ value, operator.Reads field earlier value) →
      operator.Misses field raw expected → Rejects record (.unreadable raw expected)
  | range {field : Field} {low high : Value} : record.IsFormed field .isBetween →
      List.Forall₂ (Operator.isBetween.Reads field) record.values [low, high] →
      low.compare? high = some .gt → Rejects record (.descendingRange low high)

end RuleRecord

namespace Rule

variable {record : RuleRecord} {field : Field} {operator : Operator}

theorem reads_isBetween {raw : Json} {value : Value} :
    Operator.isBetween.Reads field raw value ↔ Value.read field.type raw = .ok value :=
  compileValue_eq_ok.symm

theorem checkRange_of_reads {raw other : Json} {low high : Value}
    (hlow : Operator.isBetween.Reads field raw low)
    (hhigh : Operator.isBetween.Reads field other high) :
    checkRange field raw other =
      if low.compare? high = some .gt then .error (.descendingRange low high) else .ok () := by
  rw [checkRange, reads_isBetween.mp hlow, reads_isBetween.mp hhigh]
  rfl

theorem checkRange_of_unread {raw other : Json} {fault : RuleError}
    (h : [raw, other].mapM (compileValue field .isBetween) = .error fault) :
    checkRange field raw other = .error fault := by
  change ([raw, other].mapM (Value.read field.type)) = .error fault at h
  rw [checkRange]
  cases hlow : Value.read field.type raw with
  | error => simpa [hlow, bind, Except.bind] using h
  | ok low =>
    cases hhigh : Value.read field.type other with
    | error => simpa [hlow, hhigh, bind, Except.bind] using h
    | ok high => simp [hlow, hhigh, bind, Except.bind, pure, Except.pure] at h

theorem rangeHolds_iff {values : List Value}
    (h : List.Forall₂ (Operator.isBetween.Reads field) record.values values) :
    RangeHolds field record.values ↔ ¬Value.Descend values := by
  constructor
  · rintro hrange ⟨low, high, rfl, hgt⟩
    obtain ⟨raw, other, hraw, hlow, hhigh⟩ := eq_pair_of_forall₂ h
    have hcheck := hrange raw other hraw
    rw [checkRange_of_reads hlow hhigh, if_pos hgt] at hcheck
    cases hcheck
  · intro hascend raw other hraw
    obtain ⟨low, high, rfl, hlow, hhigh⟩ := eq_pair_of_forall₂ (hraw ▸ h).flip
    rw [checkRange_of_reads hlow hhigh, if_neg fun hgt => hascend ⟨low, high, rfl, hgt⟩]

theorem shaped_iff : Shaped record field operator ↔
    record.IsFormed field operator ∧ (operator = .isBetween → RangeHolds field record.values) := by
  constructor
  · rintro ⟨hfield, hoperator, harity, haccepts, hrange⟩
    exact ⟨⟨Field.find?_eq_some.mp hfield, Operator.find?_eq_some.mp hoperator, harity,
      Operator.accepts_iff.mp haccepts⟩, hrange⟩
  · rintro ⟨⟨hfield, hoperator, harity, hfor⟩, hrange⟩
    exact ⟨Field.find?_eq_some.mpr hfield, Operator.find?_eq_some.mpr hoperator, harity,
      Operator.accepts_iff.mpr hfor, hrange⟩

end Rule

namespace RuleRecord

open Rule

variable {record : RuleRecord} {field : Field} {operator : Operator}

theorem compile_eq_ok_iff_accepts {p : Predicate} : record.compile = .ok p ↔ record.Accepts p := by
  have hvalues (field : Field) (operator : Operator) (values : List Value) :
      List.Forall₂ (fun raw value => compileValue field operator raw = .ok value) record.values
        values ↔ List.Forall₂ (operator.Reads field) record.values values := by
    simp only [compileValue_eq_ok]
  rw [compile_eq_ok, shaped_iff, hvalues]
  constructor
  · rintro ⟨⟨hformed, hrange⟩, hreads, hjoins⟩
    obtain ⟨field, operator, values, joins⟩ := p
    obtain rfl : joins = .ofOption field.relation := hjoins
    refine .intro hformed hreads fun hbetween => ?_
    subst hbetween
    exact (rangeHolds_iff hreads).mp (hrange rfl)
  · rintro ⟨hformed, hreads, hascend⟩
    refine ⟨⟨hformed, fun hbetween => ?_⟩, hreads, rfl⟩
    subst hbetween
    exact (rangeHolds_iff hreads).mpr (hascend rfl)

/-- Where all else is right, the ends of a range are checked before the values are read. -/
theorem compile_of_formed (h : record.IsFormed field operator) : record.compile =
    if operator = .isBetween then
      match record.values with
      | [low, high] => (checkRange field low high).bind fun _ =>
        Rule.compile ⟨record.id, field, operator, record.values⟩
      | _ => Rule.compile ⟨record.id, field, operator, record.values⟩
    else Rule.compile ⟨record.id, field, operator, record.values⟩ := by
  have hfield : Field.resolve record.field.fieldName = .ok field :=
    Field.resolve_eq_ok.mpr (Field.find?_eq_some.mpr h.isField)
  have hoperator : Operator.resolve record.operator = .ok operator :=
    Operator.resolve_eq_ok.mpr (Operator.find?_eq_some.mpr h.isOperator)
  have haccepts : operator.accepts field = true := Operator.accepts_iff.mpr h.isFor
  simp only [RuleRecord.compile, ofRecord, hfield, hoperator, h.arity, haccepts, bind, Except.bind,
    ne_eq, not_true, Bool.not_true, Bool.false_eq_true, if_false]
  by_cases hbetween : operator = .isBetween
  · obtain ⟨low, high, hends⟩ := List.length_eq_two.mp (hbetween ▸ h.arity)
    simp only [hbetween, if_true, hends]
    cases checkRange field low high <;> rfl
  · rw [if_neg hbetween, if_neg hbetween]
    rfl

/-- The first value that cannot be read is reported, by the check of a range or after it. -/
theorem compile_of_unread (h : record.IsFormed field operator) {fault : RuleError}
    (hunread : record.values.mapM (compileValue field operator) = .error fault) :
    record.compile = .error fault := by
  have hcompile : Rule.compile ⟨record.id, field, operator, record.values⟩ = .error fault := by
    rw [Rule.compile, hunread]
    rfl
  rw [compile_of_formed h]
  by_cases hbetween : operator = .isBetween
  · subst hbetween
    rw [if_pos rfl]
    split
    case h_1 low high hends =>
      rw [checkRange_of_unread (hends ▸ hunread)]
      rfl
    case h_2 => exact hcompile
  · rw [if_neg hbetween, hcompile]

theorem compile_of_rejects {fault : RuleError} (h : record.Rejects fault) :
    record.compile = .error fault := by
  cases h with
  | field hnone =>
    have hfield := Field.find?_eq_none.mpr hnone
    simp [RuleRecord.compile, ofRecord, Field.resolve, hfield, bind, Except.bind]
  | operator hfield hnone =>
    have hfield := Field.find?_eq_some.mpr hfield
    have hoperator := Operator.find?_eq_none.mpr hnone
    simp [RuleRecord.compile, ofRecord, Field.resolve, hfield, Operator.resolve, hoperator, bind,
      Except.bind]
  | count hfield hoperator hcount =>
    have hfield := Field.find?_eq_some.mpr hfield
    have hoperator := Operator.find?_eq_some.mpr hoperator
    simp [RuleRecord.compile, ofRecord, Field.resolve, hfield, Operator.resolve, hoperator, bind,
      Except.bind, hcount, throw, throwThe, MonadExceptOf.throw]
  | unfit hfield hoperator hcount hunfit =>
    have hfield := Field.find?_eq_some.mpr hfield
    have hoperator := Operator.find?_eq_some.mpr hoperator
    have haccepts := Bool.eq_false_iff.mpr (mt Operator.accepts_iff.mp hunfit)
    simp [RuleRecord.compile, ofRecord, Field.resolve, hfield, Operator.resolve, hoperator, bind,
      Except.bind, hcount, haccepts, throw, throwThe, MonadExceptOf.throw]
  | value hformed hvalues hbefore hmisses =>
    refine compile_of_unread hformed (Except.mapM_eq_error.mpr ⟨_, _, _, hvalues, ?_, ?_⟩)
    · intro earlier hearlier
      obtain ⟨value, hreads⟩ := hbefore earlier hearlier
      exact ⟨value, compileValue_eq_ok.mpr hreads⟩
    · exact (compileValue_eq_error hformed.isFor.2).mpr ⟨_, hmisses, rfl⟩
  | range hformed hreads hgt =>
    obtain ⟨raw, other, hraw, hlow, hhigh⟩ := eq_pair_of_forall₂ hreads
    rw [compile_of_formed hformed, if_pos rfl, hraw]
    dsimp only
    rw [checkRange_of_reads hlow hhigh, if_pos hgt]
    rfl

theorem accepts_or_rejects (record : RuleRecord) :
    (∃ p, record.Accepts p) ∨ ∃ fault, record.Rejects fault := by
  by_cases hfield : ∃ field : Field, field.HasName record.field.fieldName
  case neg => exact .inr ⟨_, .field (not_exists.mp hfield)⟩
  obtain ⟨field, hfield⟩ := hfield
  by_cases hoperator : ∃ operator : Operator, operator.name = record.operator
  case neg => exact .inr ⟨_, .operator hfield (not_exists.mp hoperator)⟩
  obtain ⟨operator, hoperator⟩ := hoperator
  by_cases hcount : record.values.length = operator.arity
  case neg => exact .inr ⟨_, .count hfield hoperator hcount⟩
  by_cases hfor : operator.IsFor field
  case neg => exact .inr ⟨_, .unfit hfield hoperator hcount hfor⟩
  have hformed : record.IsFormed field operator := ⟨hfield, hoperator, hcount, hfor⟩
  cases hread : record.values.mapM (compileValue field operator) with
  | error fault =>
    obtain ⟨before, raw, after, hvalues, hbefore, hraw⟩ := Except.mapM_eq_error.mp hread
    obtain ⟨expected, hmisses, -⟩ := (compileValue_eq_error hfor.2).mp hraw
    refine .inr ⟨_, .value hformed hvalues (fun earlier hearlier => ?_) hmisses⟩
    obtain ⟨value, hvalue⟩ := hbefore earlier hearlier
    exact ⟨value, compileValue_eq_ok.mp hvalue⟩
  | ok values =>
    have hreads : List.Forall₂ (operator.Reads field) record.values values :=
      (Except.mapM_eq_ok.mp hread).imp fun _ _ => compileValue_eq_ok.mp
    by_cases hrange : operator = .isBetween ∧ Value.Descend values
    case pos =>
      obtain ⟨rfl, low, high, rfl, hgt⟩ := hrange
      exact .inr ⟨_, .range hformed hreads hgt⟩
    case neg => exact .inl ⟨_, .intro hformed hreads (not_and.mp hrange)⟩

theorem compile_eq_error_iff_rejects {fault : RuleError} :
    record.compile = .error fault ↔ record.Rejects fault := by
  refine ⟨fun h => ?_, compile_of_rejects⟩
  rcases record.accepts_or_rejects with ⟨p, hp⟩ | ⟨other, hother⟩
  · cases h.symm.trans (compile_eq_ok_iff_accepts.mpr hp)
  · obtain rfl := Except.error.inj (h.symm.trans (compile_of_rejects hother))
    exact hother

/-- A rule compiles exactly when it is meaningful, and what is reported otherwise is the first
of the failing tests, whatever else is wrong with it and whatever hints its field carries. -/
theorem verdict_of_compile (record : RuleRecord) :
    (∀ p, record.compile = .ok p ↔ record.Accepts p) ∧
    (∀ fault, record.compile = .error fault ↔ record.Rejects fault) ∧
    ∀ (id : Option Int) (type label unit : Option String),
      RuleRecord.compile ⟨id, .described ⟨record.field.fieldName, type, label, unit⟩,
        record.operator, record.values⟩ = record.compile := by
  refine ⟨fun _ => compile_eq_ok_iff_accepts, fun _ => compile_eq_error_iff_rejects, ?_⟩
  intro id type label unit
  exact Agrees.compile_eq ⟨rfl, rfl, rfl⟩

/-- A range of one value on a text is reported for its number of values. -/
example : RuleRecord.compile ⟨none, .named "song.title", "isBetween", [.null]⟩ =
    .error (.wrongArity .isBetween 1) := rfl

end RuleRecord

end Setlist
