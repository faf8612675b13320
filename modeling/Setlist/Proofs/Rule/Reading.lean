import Setlist.Proofs.Rule.Accepted

/-! # What a raw value is read as

A type says which raw values it has and what they stand for; an operator says whether it wants
a value of the field's type, a literal to search for, or a count of the field's unit. Reading
finds what these relations say, and else tells what it missed.
-/

namespace Setlist

namespace Value

/-- A raw value, and what it is as a value of a type. -/
inductive Reads : ValueType → Json → Value → Prop
  | text (literal : String) : Reads .text (.string literal) (.text literal)
  | written (n : JsonNumber) : Reads .text (.number n) (.text n.text)
  | number {n : JsonNumber} : n.toBinary64.isFinite = true →
      Reads .number (.number n) (.number n.toBinary64)
  | numeral {literal : String} {x : Binary64} : Binary64.read? (Text.trim literal) = some x →
      x.isFinite = true → Reads .number (.string literal) (.number x)
  | timestamp {literal : String} {t : Instant} : Timestamp.read? literal = some t →
      Reads .date (.string literal) (.instant t)

theorem readText_eq_ok {raw : Json} {literal : String} :
    readText raw = .ok literal ↔ Reads .text raw (.text literal) := by
  constructor
  · intro h
    cases raw with
    | string => cases h; exact .text _
    | number => cases h; exact .written _
    | _ => cases h
  · rintro (_ | _) <;> rfl

theorem readText_fault {raw : Json} {fault : RuleError} (h : readText raw = .error fault) :
    fault = .unreadable raw (.value .text) := by
  cases raw <;> cases h <;> rfl

theorem readNumber_eq_ok {raw : Json} {x : Binary64} :
    readNumber raw = .ok x ↔ Reads .number raw (.number x) := by
  constructor
  · unfold readNumber
    cases hfound : number? raw with
    | none => exact nofun
    | some found =>
      dsimp only
      split
      case isTrue hfinite =>
        rintro ⟨⟩
        cases raw with
        | string => exact .numeral hfound hfinite
        | number => cases hfound; exact .number hfinite
        | _ => cases hfound
      case isFalse => exact nofun
  · rintro (_ | _ | hfinite | ⟨hread, hfinite⟩)
    · simp [readNumber, number?, hfinite]
    · simp [readNumber, number?, hread, hfinite]

theorem readNumber_fault {raw : Json} {fault : RuleError} (h : readNumber raw = .error fault) :
    fault = .unreadable raw (.value .number) := by
  unfold readNumber at h
  split at h
  case h_1 => split at h <;> cases h; rfl
  case h_2 => cases h; rfl

theorem readInstant_eq_ok {raw : Json} {t : Instant} :
    readInstant raw = .ok t ↔ Reads .date raw (.instant t) := by
  constructor
  · intro h
    cases raw with
    | string literal =>
      cases hfound : Timestamp.read? literal with
      | none => simp [readInstant, hfound] at h
      | some found =>
        obtain rfl : found = t := by simpa [readInstant, hfound] using h
        exact .timestamp hfound
    | _ => cases h
  · rintro (_ | _ | _ | _ | hread)
    simp [readInstant, hread]

theorem readInstant_fault {raw : Json} {fault : RuleError} (h : readInstant raw = .error fault) :
    fault = .unreadable raw (.value .date) := by
  unfold readInstant at h
  dsimp only at h
  split at h <;> cases h
  rfl

theorem read_eq_ok {type : ValueType} {raw : Json} {value : Value} :
    read type raw = .ok value ↔ Reads type raw value := by
  cases type with
  | text =>
    simp only [read, Except.map_eq_ok, readText_eq_ok]
    constructor
    · rintro ⟨_, hreads, rfl⟩
      exact hreads
    · rintro (_ | _)
      exacts [⟨_, .text _, rfl⟩, ⟨_, .written _, rfl⟩]
  | number =>
    simp only [read, Except.map_eq_ok, readNumber_eq_ok]
    constructor
    · rintro ⟨_, hreads, rfl⟩
      exact hreads
    · rintro (_ | _ | hfinite | ⟨hread, hfinite⟩)
      exacts [⟨_, .number hfinite, rfl⟩, ⟨_, .numeral hread hfinite, rfl⟩]
  | date =>
    simp only [read, Except.map_eq_ok, readInstant_eq_ok]
    constructor
    · rintro ⟨_, hreads, rfl⟩
      exact hreads
    · rintro (_ | _ | _ | _ | hread)
      exact ⟨_, .timestamp hread, rfl⟩

theorem read_fault {type : ValueType} {raw : Json} {fault : RuleError}
    (h : read type raw = .error fault) : fault = .unreadable raw (.value type) := by
  cases type with
  | text => exact readText_fault (Except.map_eq_error.mp h)
  | number => exact readNumber_fault (Except.map_eq_error.mp h)
  | date => exact readInstant_fault (Except.map_eq_error.mp h)

theorem read_eq_error {type : ValueType} {raw : Json} {fault : RuleError} :
    read type raw = .error fault ↔
      (∀ value, ¬Reads type raw value) ∧ fault = .unreadable raw (.value type) := by
  constructor
  · intro h
    refine ⟨fun value hvalue => ?_, read_fault h⟩
    cases h.symm.trans (read_eq_ok.mpr hvalue)
  · rintro ⟨hnone, rfl⟩
    cases hread : read type raw with
    | ok value => exact (hnone value (read_eq_ok.mp hread)).elim
    | error fault => rw [read_fault hread]

theorem readText_eq_error {raw : Json} {fault : RuleError} : readText raw = .error fault ↔
    (∀ value, ¬Reads .text raw value) ∧ fault = .unreadable raw (.value .text) := by
  have hread : read .text raw = .error fault ↔ readText raw = .error fault := Except.map_eq_error
  rw [← hread, read_eq_error]

theorem readNumber_eq_error {raw : Json} {fault : RuleError} : readNumber raw = .error fault ↔
    (∀ value, ¬Reads .number raw value) ∧ fault = .unreadable raw (.value .number) := by
  have hread : read .number raw = .error fault ↔ readNumber raw = .error fault :=
    Except.map_eq_error
  rw [← hread, read_eq_error]

end Value

namespace Operator

/-- A raw value of a rule, and what the operator takes it for on a field. -/
inductive Reads (operator : Operator) (field : Field) (raw : Json) : Value → Prop
  | value {value : Value} : operator.operand = .fieldValue → operator.matchKind = none →
      Value.Reads field.type raw value → Reads operator field raw value
  | pattern {kind : Text.MatchKind} {literal : String} : operator.matchKind = some kind →
      Value.Reads .text raw (.text literal) →
      Reads operator field raw (.pattern (.ofLiteral kind literal))
  | window {unit : TimeUnit} {count : Binary64} {millis : Int} : operator.operand = .unitCount →
      field.unit = some unit → Value.Reads .number raw (.number count) →
      unit.duration count = some millis → Reads operator field raw (.window millis)

/-- A raw value that the operator cannot take, and what it should have been. -/
inductive Misses (operator : Operator) (field : Field) (raw : Json) : Expected → Prop
  | value : operator.operand = .fieldValue → operator.matchKind = none →
      (∀ value, ¬Value.Reads field.type raw value) → Misses operator field raw (.value field.type)
  | literal {kind : Text.MatchKind} : operator.matchKind = some kind →
      (∀ value, ¬Value.Reads .text raw value) → Misses operator field raw (.value .text)
  | number : operator.operand = .unitCount → (∀ value, ¬Value.Reads .number raw value) →
      Misses operator field raw (.value .number)
  | count {unit : TimeUnit} {count : Binary64} : operator.operand = .unitCount →
      field.unit = some unit → Value.Reads .number raw (.number count) →
      unit.duration count = none → Misses operator field raw .count

theorem operand_of_matchKind {operator : Operator} {kind : Text.MatchKind}
    (h : operator.matchKind = some kind) : operator.operand = .fieldValue := by
  cases operator <;> first | rfl | cases h

end Operator

namespace Rule

open Value

variable {field : Field} {operator : Operator} {raw : Json}

theorem compileValue_eq_ok {value : Value} :
    compileValue field operator raw = .ok value ↔ operator.Reads field raw value := by
  constructor
  · intro h
    unfold compileValue at h
    split at h
    case h_1 hoperand =>
      split at h
      case h_1 unit hunit =>
        obtain ⟨count, hcount, h⟩ := Except.bind_eq_ok.mp h
        split at h
        case h_1 millis hmillis =>
          cases h
          exact .window hoperand hunit (readNumber_eq_ok.mp hcount) hmillis
        case h_2 => cases h
      case h_2 => cases h
    case h_2 hoperand =>
      split at h
      case h_1 kind hkind =>
        obtain ⟨literal, hread, rfl⟩ := Except.map_eq_ok.mp h
        exact .pattern hkind (readText_eq_ok.mp hread)
      case h_2 hkind => exact .value hoperand hkind (read_eq_ok.mp h)
  · intro h
    cases h with
    | value hoperand hkind hread => simp only [compileValue, hoperand, hkind, read_eq_ok.mpr hread]
    | pattern hkind hread =>
      simp only [compileValue, Operator.operand_of_matchKind hkind, hkind, readText_eq_ok.mpr hread,
        Except.map]
    | window hoperand hunit hcount hmillis =>
      simp [compileValue, hoperand, hunit, readWindow, readNumber_eq_ok.mpr hcount, hmillis, bind,
        Except.bind]

/-- Where the field has the unit that the operator counts in, only the value can be at fault. -/
theorem compileValue_eq_error {fault : RuleError}
    (hunit : operator.operand = .unitCount → field.unit.isSome = true) :
    compileValue field operator raw = .error fault ↔
      ∃ expected, operator.Misses field raw expected ∧ fault = .unreadable raw expected := by
  constructor
  · intro h
    unfold compileValue at h
    split at h
    case h_1 hoperand =>
      obtain ⟨unit, hsome⟩ := Option.isSome_iff_exists.mp (hunit hoperand)
      simp only [hsome, readWindow] at h
      cases hread : readNumber raw with
      | error cause =>
        rw [hread] at h
        obtain rfl := Except.error.inj h
        obtain ⟨hnone, rfl⟩ := readNumber_eq_error.mp hread
        exact ⟨_, .number hoperand hnone, rfl⟩
      | ok count =>
        rw [hread] at h
        cases hmillis : unit.duration count with
        | some millis => simp [bind, Except.bind, hmillis] at h
        | none =>
          obtain rfl : RuleError.unreadable raw .count = fault := by
            simpa [bind, Except.bind, hmillis] using h
          exact ⟨_, .count hoperand hsome (readNumber_eq_ok.mp hread) hmillis, rfl⟩
    case h_2 hoperand =>
      split at h
      case h_1 kind hkind =>
        obtain ⟨hnone, rfl⟩ := readText_eq_error.mp (Except.map_eq_error.mp h)
        exact ⟨_, .literal hkind hnone, rfl⟩
      case h_2 hkind =>
        obtain ⟨hnone, rfl⟩ := read_eq_error.mp h
        exact ⟨_, .value hoperand hkind hnone, rfl⟩
  · rintro ⟨expected, hmisses, rfl⟩
    cases hmisses with
    | value hoperand hkind hnone =>
      simp only [compileValue, hoperand, hkind, read_eq_error.mpr ⟨hnone, rfl⟩]
    | literal hkind hnone =>
      simp only [compileValue, Operator.operand_of_matchKind hkind, hkind,
        readText_eq_error.mpr ⟨hnone, rfl⟩, Except.map]
    | number hoperand hnone =>
      obtain ⟨unit, hsome⟩ := Option.isSome_iff_exists.mp (hunit hoperand)
      simp only [compileValue, hoperand, hsome, readWindow, readNumber_eq_error.mpr ⟨hnone, rfl⟩,
        bind, Except.bind]
    | count hoperand hsome hread hmillis =>
      simp [compileValue, hoperand, hsome, readWindow, readNumber_eq_ok.mpr hread, hmillis, bind,
        Except.bind]

end Rule

end Setlist
