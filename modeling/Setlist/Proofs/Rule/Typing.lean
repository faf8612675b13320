import Setlist.Proofs.Rule.Verdict

/-! # Typed predicates

The operator and the field of a compiled predicate say of which kind its values are and how many
there are of them, so nothing that is made of a predicate meets values of another shape.
-/

namespace Setlist

inductive ValueKind
  | text | number | instant | pattern | window
  deriving DecidableEq, Repr

def Value.kind : Value → ValueKind
  | text _ => .text
  | pattern _ => .pattern
  | number _ => .number
  | instant _ => .instant
  | window _ => .window

def ValueType.kind : ValueType → ValueKind
  | text => .text
  | number => .number
  | date => .instant

/-- Substrings are searched by patterns, spans of time are windows, and all else is compared with
values of the field's own type. -/
def Operator.valueKind (operator : Operator) (field : Field) : ValueKind :=
  match operator with
  | contains | notContain | beginsWith | endsWith => .pattern
  | inLast | notInLast => .window
  | is | isNot | isGreaterThan | isLessThan | isBetween => field.type.kind

/-- The predicate has the values that its operator takes, of the right kind, and it joins what
its field is read from. -/
structure Predicate.Typed (p : Predicate) : Prop where
  arity : p.values.length = p.operator.arity
  kind : ∀ value ∈ p.values, value.kind = p.operator.valueKind p.field
  finite : ∀ x, .number x ∈ p.values → x.isFinite = true
  ascends : p.operator = .isBetween → ∃ low high order, p.values = [low, high] ∧
    low.compare? high = some order ∧ order ≠ .gt
  joins : p.joins = .ofOption p.field.relation

namespace Value

variable {type : ValueType} {raw other : Json} {value low high : Value}

theorem Reads.kind_eq (h : Reads type raw value) : value.kind = type.kind := by
  cases h <;> rfl

theorem Reads.isFinite {x : Binary64} (h : Reads type raw (.number x)) : x.isFinite = true := by
  cases h <;> assumption

theorem compare?_numbers {x y : Binary64} (hx : x.isFinite = true) (hy : y.isFinite = true) :
    ∃ order, (number x).compare? (number y) = some order := by
  have hreal {x : Binary64} (hx : x.isFinite = true) : x.isNaN = false := by
    simp only [Binary64.isFinite, Binary64.isNaN, decide_eq_true_eq, decide_eq_false_iff_not] at *
    omega
  exact ⟨_, by rw [compare?, Binary64.compare?, hreal hx, hreal hy]; rfl⟩

theorem Reads.comparable (hlow : Reads type raw low) (hhigh : Reads type other high) :
    ∃ order, low.compare? high = some order := by
  have hkind : low.kind = high.kind := hlow.kind_eq.trans hhigh.kind_eq.symm
  cases low with
  | number x =>
    cases high with
    | number y => exact compare?_numbers hlow.isFinite hhigh.isFinite
    | _ => cases hkind
  | text | instant | window =>
    cases high <;> first | exact ⟨_, rfl⟩ | cases hkind
  | pattern => cases hlow

end Value

namespace Operator

variable {operator : Operator} {field : Field} {raw : Json} {value : Value}

theorem Reads.kind_eq (h : operator.Reads field raw value) :
    value.kind = operator.valueKind field := by
  cases h with
  | value hoperand hkind hread =>
    rw [hread.kind_eq]
    cases operator <;> first | rfl | (cases hoperand; done) | cases hkind
  | pattern hkind =>
    cases operator <;> first | rfl | cases hkind
  | window hoperand =>
    cases operator <;> first | rfl | cases hoperand

theorem Reads.isFinite {x : Binary64} (h : operator.Reads field raw (.number x)) :
    x.isFinite = true := by
  cases h with
  | value _ _ hread => exact hread.isFinite

end Operator

namespace RuleRecord

variable {record : RuleRecord} {p : Predicate}

theorem Accepts.typed (h : record.Accepts p) : p.Typed := by
  obtain ⟨hformed, hreads, hascend⟩ := h
  constructor
  case arity => exact hreads.length_eq.symm.trans hformed.arity
  case kind =>
    intro value hvalue
    obtain ⟨raw, -, hraw⟩ := exists_of_forall₂ hreads hvalue
    exact hraw.kind_eq
  case finite =>
    intro x hx
    obtain ⟨raw, -, hraw⟩ := exists_of_forall₂ hreads hx
    exact hraw.isFinite
  case ascends =>
    rintro rfl
    obtain ⟨low, high, rfl⟩ := List.length_eq_two.mp (hreads.length_eq.symm.trans hformed.arity)
    obtain ⟨raw, other, -, hlow, hhigh⟩ := eq_pair_of_forall₂ hreads
    obtain ⟨order, horder⟩ := (Value.read_eq_ok.mp (Rule.reads_isBetween.mp hlow)).comparable
      (Value.read_eq_ok.mp (Rule.reads_isBetween.mp hhigh))
    refine ⟨low, high, order, rfl, horder, ?_⟩
    rintro rfl
    exact hascend rfl ⟨low, high, rfl, horder⟩
  case joins => rfl

theorem typed_of_compile (h : record.compile = .ok p) : p.Typed :=
  (compile_eq_ok_iff_accepts.mp h).typed

end RuleRecord

namespace Rule

/-- What is wrong with a rule whose shape is right is one of its values. -/
theorem compile_fault {record : RuleRecord} {rule : Rule} {fault : RuleError}
    (hrule : ofRecord record = .ok rule) (h : rule.compile = .error fault) :
    ∃ raw ∈ record.values, ∃ expected, rule.operator.Misses rule.field raw expected ∧
      fault = .unreadable raw expected := by
  obtain ⟨hshaped, -, hvalues⟩ := ofRecord_eq_ok.mp hrule
  have hunread : rule.values.mapM (compileValue rule.field rule.operator) = .error fault := by
    unfold compile at h
    cases hread : rule.values.mapM (compileValue rule.field rule.operator) with
    | ok values => simp [hread, bind, Except.bind, pure, Except.pure] at h
    | error cause => simpa [hread, bind, Except.bind] using h
  obtain ⟨before, raw, after, hsplit, -, hraw⟩ := Except.mapM_eq_error.mp hunread
  obtain ⟨expected, hmisses, hfault⟩ :=
    (compileValue_eq_error (shaped_iff.mp hshaped).1.isFor.2).mp hraw
  have hmem : raw ∈ record.values := by
    rw [← hvalues, hsplit]
    exact List.mem_append_right _ List.mem_cons_self
  exact ⟨raw, hmem, expected, hmisses, hfault⟩

end Rule

namespace GroupRecord

theorem typed_of_mem_compile {user : Int} {groups : List GroupRecord} {p : Predicate}
    (h : p ∈ (compile user groups).1.groups.flatten) : p.Typed := by
  obtain ⟨_, hps, hp⟩ := List.mem_flatten.mp h
  obtain ⟨group, -, rfl⟩ := List.mem_map.mp hps
  obtain ⟨record, -, hcompile⟩ := exists_record hp
  exact RuleRecord.typed_of_compile hcompile

end GroupRecord

end Setlist
