import Setlist.Proofs.Catalogue.Evaluation

/-! # Single rules

A rule that is a list of its own is answered by its condition, song by song, unless its pattern
is too long for the database, which then answers for no song at all.
-/

namespace Setlist

/-- The rule asks this of a field, under either of the field's names. -/
structure RuleRecord.Asks (record : RuleRecord) (field : Field) (operator : Operator)
    (values : List Json) : Prop where
  field : Field.find? record.field.fieldName = some field
  operator : Operator.find? record.operator = some operator
  values : record.values = values

def literalRule (field : Field) (operator : Operator) (literal : String) : RuleRecord :=
  ⟨none, .named field.name, operator.name, [.string literal]⟩

theorem Field.find?_name (field : Field) : find? field.name = some field := by
  cases field <;> decide +kernel

theorem Operator.find?_name (operator : Operator) : find? operator.name = some operator := by
  cases operator <;> decide +kernel

theorem asks_literalRule (field : Field) (operator : Operator) (literal : String) :
    (literalRule field operator literal).Asks field operator [.string literal] :=
  ⟨Field.find?_name field, Operator.find?_name operator, rfl⟩

theorem RuleRecord.Asks.compile_eq {record : RuleRecord} {field : Field} {operator : Operator}
    {raws : List Json} {values : List Value} (h : record.Asks field operator raws)
    (haccepts : operator.accepts field = true) (harity : raws.length = operator.arity)
    (hrange : operator = .isBetween → Rule.RangeHolds field raws)
    (hread : List.Forall₂ (fun raw value => Rule.compileValue field operator raw = .ok value)
      raws values) :
    record.compile = .ok ⟨field, operator, values, .ofOption field.relation⟩ := by
  obtain ⟨hfield, hoperator, rfl⟩ := h
  exact RuleRecord.compile_eq_ok.mpr ⟨⟨hfield, hoperator, harity, haccepts, hrange⟩, hread, rfl⟩

theorem RuleRecord.value_of_compile {record : RuleRecord} {p : Predicate}
    (h : record.compile = .ok p) (harity : p.operator.arity = 1) :
    ∃ raw value, record.values = [raw] ∧ p.values = [value] ∧
      Rule.compileValue p.field p.operator raw = .ok value := by
  obtain ⟨hshaped, hread, -⟩ := RuleRecord.compile_eq_ok.mp h
  obtain ⟨raw, hraw⟩ := List.length_eq_one_iff.mp (hshaped.arity.trans harity)
  rw [hraw] at hread
  obtain ⟨value, rest, hvalue, hrest, hvalues⟩ := List.forall₂_cons_left_iff.mp hread
  rw [List.forall₂_nil_left_iff.mp hrest] at hvalues
  exact ⟨raw, value, hraw, hvalues, hvalue⟩

theorem Rule.compileValue_eq_ok_of_date {field : Field} {operator : Operator} {raw : Json}
    {value : Value} (hdate : field.type = .date) (hoperand : operator.operand = .fieldValue)
    (hkind : operator.matchKind = none) : compileValue field operator raw = .ok value ↔
      ∃ text instant, raw = .string text ∧ Timestamp.read? text = some instant ∧
        value = .instant instant := by
  simp only [compileValue, hoperand, hkind, Value.read, hdate, Except.map_eq_ok]
  constructor
  · rintro ⟨instant, hread, rfl⟩
    cases raw with
    | string text =>
      cases hsome : Timestamp.read? text with
      | none => simp [Value.readInstant, hsome] at hread
      | some found =>
        obtain rfl : found = instant := by simpa [Value.readInstant, hsome] using hread
        exact ⟨text, found, rfl, hsome, rfl⟩
    | _ => cases hread
  · rintro ⟨text, instant, rfl, hread, rfl⟩
    exact ⟨instant, by simp [Value.readInstant, hread], rfl⟩

theorem RuleRecord.instant_of_compile {record : RuleRecord} {p : Predicate}
    (h : record.compile = .ok p) (hdate : p.field.type = .date) (harity : p.operator.arity = 1)
    (hoperand : p.operator.operand = .fieldValue) (hkind : p.operator.matchKind = none) :
    ∃ text instant, record.values = [.string text] ∧ Timestamp.read? text = some instant ∧
      p.values = [.instant instant] := by
  obtain ⟨raw, value, hraw, hvalue, hread⟩ := value_of_compile h harity
  obtain ⟨text, instant, rfl, hinstant, rfl⟩ :=
    (Rule.compileValue_eq_ok_of_date hdate hoperand hkind).mp hread
  exact ⟨text, instant, hraw, hinstant, hvalue⟩

theorem RuleRecord.range_of_compile {record : RuleRecord} {p : Predicate}
    (h : record.compile = .ok p) (hdate : p.field.type = .date)
    (hoperator : p.operator = .isBetween) :
    ∃ text text' low high, record.values = [.string text, .string text'] ∧
      Timestamp.read? text = some low ∧ Timestamp.read? text' = some high ∧
      p.values = [.instant low, .instant high] ∧ low.compare high ≠ .gt := by
  obtain ⟨hshaped, hread, -⟩ := RuleRecord.compile_eq_ok.mp h
  have harity := hshaped.arity
  rw [hoperator] at harity hread
  obtain ⟨raw, raw', hraw⟩ := List.length_eq_two.mp harity
  rw [hraw] at hread
  obtain ⟨value, rest, hvalue, hrest, hvalues⟩ := List.forall₂_cons_left_iff.mp hread
  obtain ⟨value', rest', hvalue', hnil, rfl⟩ := List.forall₂_cons_left_iff.mp hrest
  obtain rfl := List.forall₂_nil_left_iff.mp hnil
  obtain ⟨text, low, rfl, hlow, rfl⟩ :=
    (Rule.compileValue_eq_ok_of_date hdate rfl rfl).mp hvalue
  obtain ⟨text', high, rfl, hhigh, rfl⟩ :=
    (Rule.compileValue_eq_ok_of_date hdate rfl rfl).mp hvalue'
  refine ⟨text, text', low, high, hraw, hlow, hhigh, hvalues, fun hgt => ?_⟩
  have hends {text : String} {instant : Instant} (hread : Timestamp.read? text = some instant) :
      Value.read p.field.type (.string text) = .ok (.instant instant) := by
    simp [Value.read, hdate, Value.readInstant, hread, Except.map]
  have hrange := hshaped.range hoperator _ _ hraw
  have hdescends : Value.compare? (.instant low) (.instant high) = some .gt := congrArg some hgt
  rw [Rule.checkRange, hends hlow, hends hhigh] at hrange
  simp [bind, Except.bind, hdescends, throw, throwThe, MonadExceptOf.throw] at hrange

theorem RuleRecord.Asks.compile_instant {record : RuleRecord} {field : Field} {operator : Operator}
    {text : String} {instant : Instant} (h : record.Asks field operator [.string text])
    (hdate : field.type = .date) (haccepts : operator.accepts field = true)
    (harity : operator.arity = 1) (hoperand : operator.operand = .fieldValue)
    (hread : Timestamp.read? text = some instant) :
    record.compile =
      .ok ⟨field, operator, [.instant instant], .ofOption field.relation⟩ := by
  have hkind : operator.matchKind = none := by
    cases operator <;> simp_all [Operator.accepts, Operator.types, Operator.matchKind]
  have hvalue := (Rule.compileValue_eq_ok_of_date hdate hoperand hkind).mpr
    ⟨text, instant, rfl, hread, rfl⟩
  refine h.compile_eq haccepts harity.symm (fun hbetween => ?_) (.cons hvalue .nil)
  rw [hbetween] at harity
  cases harity

namespace Predicate

/-- A pattern that is too long is met on every song that has the field. -/
theorem fails_of_long {p : Predicate} (hkind : p.operator.matchKind.isSome) {value : Value}
    (hvalues : p.values = [value]) (hlong : Condition.isOverlong value.datum = true)
    (now : Instant) {read : Field → Cell} (hread : (read p.field).isSome) :
    (p.condition now).fails read = true := by
  obtain ⟨field, operator, values, joins⟩ := p
  subst hvalues
  cases operator <;> first
    | exact Bool.noConfusion hkind
    | simpa [condition, comparison, Operator.arity, Operator.isNegated, Condition.fails] using
        hlong
    | simpa [condition, comparison, Operator.arity, Operator.isNegated, Condition.fails, hread]
        using And.intro hread hlong

end Predicate

namespace Expression

theorem joins_single (user : Int) (p : Predicate) : (ofGroups user [[p]]).joins = p.joins := by
  simp [ofGroups, Joins.unions, Joins.union, Joins.none]

theorem coveredBy_single {user : Int} {p : Predicate} (h : p.joins.Covers p.field) :
    (ofGroups user [[p]]).CoveredBy (ofGroups user [[p]]).joins := by
  rintro group hgroup q hq
  obtain rfl := List.mem_singleton.mp hgroup
  obtain rfl := List.mem_singleton.mp hq
  rwa [joins_single]

end Expression

theorem Selection.fits_single (user : Int) (p : Predicate) (joins : Joins) (order : SortOrder)
    (now : Instant) (page : Option PageRequest) :
    (ofExpression (.ofGroups user [[p]]) joins order now).Fits page := by
  refine fits_of_few (by simp [Expression.predicateCount, Expression.ofGroups]) ?_ page
  simp [Expression.ofGroups]

namespace Catalogue

variable {c : Catalogue} {user : Int} {song : SongRow} {record : RuleRecord} {p : Predicate}

/-- The rule, as a list of its own, is accepted and its queries are run, and it matches the
song just when the condition holds. -/
def Answers (c : Catalogue) (user : Int) (now : Instant) (rule : RuleRecord) (id : String)
    (condition : Prop) : Prop :=
  ∃ e, GroupRecord.compileStrict user [⟨none, [rule]⟩] = .ok e ∧
    (∀ plan order page, (counting e order now).fault? plan none c = none ∧
      (listing e order now).fault? plan (some page) c = none) ∧
    (id ∈ c.matched e now ↔ condition)

/-- The rule is accepted, but the database does not match its pattern. -/
def Refuses (c : Catalogue) (user : Int) (now : Instant) (rule : RuleRecord) : Prop :=
  ∃ e, GroupRecord.compileStrict user [⟨none, [rule]⟩] = .ok e ∧
    ∀ plan order page, c.evaluate plan e order page now = .error (.database .patternTooLong)

theorem Answers.congr {user : Int} {now : Instant} {rule : RuleRecord} {id : String}
    {P Q : Prop} (h : c.Answers user now rule id P) (hiff : P ↔ Q) :
    c.Answers user now rule id Q := by
  obtain ⟨e, hstrict, hrun, hmatched⟩ := h
  exact ⟨e, hstrict, hrun, hmatched.trans hiff⟩

/-- The queries of the predicate by itself are run, and they find the song just when the
condition holds. -/
def Decides (c : Catalogue) (user : Int) (now : Instant) (p : Predicate) (id : String)
    (condition : Prop) : Prop :=
  (∀ plan order page, (counting (.ofGroups user [[p]]) order now).fault? plan none c = none ∧
    (listing (.ofGroups user [[p]]) order now).fault? plan (some page) c = none) ∧
  (id ∈ c.matched (.ofGroups user [[p]]) now ↔ condition)

theorem Decides.congr {user : Int} {now : Instant} {id : String} {P Q : Prop}
    (h : c.Decides user now p id P) (hiff : P ↔ Q) : c.Decides user now p id Q :=
  ⟨h.1, h.2.trans hiff⟩

theorem Decides.answers {now : Instant} {id : String} {P : Prop}
    (hdecides : c.Decides user now p id P) (h : record.compile = .ok p) :
    c.Answers user now record id P :=
  ⟨_, compileStrict_single user h, hdecides⟩

theorem decides_of_covers (hc : c.Invariant) (hsong : song ∈ c.songs)
    (hcovers : p.joins.Covers p.field) (hfit : p.PatternsFit) (now : Instant) :
    c.Decides user now p song.id
      ((p.condition now).truth (c.view user song).cell = some true) := by
  have hrun (plan : Plan) (joins : Joins) (order : SortOrder) (page : Option PageRequest) :
      (Selection.ofExpression (.ofGroups user [[p]]) joins order now).fault? plan page c = none := by
    refine Selection.fault?_eq_none (Selection.fits_single ..) (Selection.not_hasOverlong ?_)
    simpa [Expression.ofGroups] using hfit
  refine ⟨fun plan order page => ⟨hrun .., hrun ..⟩, ?_⟩
  rw [song_mem_matched hc (Expression.coveredBy_single hcovers) hsong, Expression.matches_single]

theorem answers_of_compile (hc : c.Invariant) (hsong : song ∈ c.songs)
    (h : record.compile = .ok p) (hfit : p.PatternsFit) (now : Instant) :
    c.Answers user now record song.id
      ((p.condition now).truth (c.view user song).cell = some true) := by
  have hcovers := GroupRecord.coveredBy_of_compileStrict (compileStrict_single user h) _
    List.mem_cons_self _ List.mem_cons_self
  rw [Expression.joins_single] at hcovers
  exact (decides_of_covers hc hsong hcovers hfit now).answers h

/-- A song that has the field is tested whatever else is stored, and meets the pattern. -/
theorem refuses_of_compile (hc : c.Invariant) (hsong : song ∈ c.songs)
    (h : record.compile = .ok p) (hkind : p.operator.matchKind.isSome) {value : Value}
    (hvalues : p.values = [value]) (hlong : Condition.isOverlong value.datum = true)
    (hcell : ((c.view user song).cell p.field).isSome) (now : Instant) :
    c.Refuses user now record := by
  have hstrict := compileStrict_single user h
  have hcovers := GroupRecord.coveredBy_of_compileStrict hstrict _ List.mem_cons_self _
    List.mem_cons_self
  refine ⟨_, hstrict, fun plan order page => ?_⟩
  have hmeets : plan.meets (counting (.ofGroups user [[p]]) order now) none c = true := by
    have hrow : (c.view user song).restrict (counting (.ofGroups user [[p]]) order now).joins ∈
        c.joined (counting (.ofGroups user [[p]]) order now).joins user := by
      rw [joined_eq hc]
      exact List.mem_map_of_mem hsong
    refine plan.tested rfl hrow (Predicate.fails_of_long hkind hvalues hlong now ?_)
    rwa [counting, Selection.ofExpression, Row.cell_restrict hcovers]
  have hfault : (counting (.ofGroups user [[p]]) order now).fault? plan none c =
      some .patternTooLong := by
    have hfits : (counting (.ofGroups user [[p]]) order now).Fits none :=
      Selection.fits_single ..
    rw [Selection.fault?_of_fits hfits, if_pos hmeets]
  refine evaluate_of_fault? (by simp [Expression.matchesNothing, Expression.ofGroups]) ?_
  rw [hfault, Option.some_or]

end Catalogue

end Setlist
