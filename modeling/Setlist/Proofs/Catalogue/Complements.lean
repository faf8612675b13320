import Setlist.Proofs.Catalogue.Rules

/-! # Complementary rules

A negated rule is to match just the songs that its positive form does not match, those without
the field among them. The two conditions are opposite where the field is present and the
comparison is known. It is unknown only for the day of a time that the database cannot count.
-/

namespace Setlist

/-- The operator that asks the opposite. -/
def Operator.complement? : Operator → Option Operator
  | is => some isNot
  | contains => some notContain
  | inLast => some notInLast
  | _ => none

namespace Truth

theorem not_and (a b : Truth) : (a.and b).not = a.not.or b.not := by
  rcases a with _ | _ | _ <;> rcases b with _ | _ | _ <;> rfl

theorem isSome_and {a b : Truth} (ha : a.isSome) (hb : b.isSome) : (a.and b).isSome := by
  rcases a with _ | _ | _ <;> rcases b with _ | _ | _ <;> simp_all [and]

end Truth

namespace Predicate

def withOperator (p : Predicate) (operator : Operator) : Predicate :=
  ⟨p.field, operator, p.values, p.joins⟩

/-- If the predicate compares days, then the database knows the day that it asks for. -/
def DayKnown (p : Predicate) : Prop :=
  p.operator = .is → ∀ instant, p.values = [.instant instant] → Timestamp.IsCounted instant

variable {p : Predicate} {opposite : Operator} {value : Value} {read : Field → Cell}

theorem outside_eq (cell : Cell) (low high : Datum) :
    (Condition.compares (· == .lt) cell low).or (Condition.compares (· == .gt) cell high) =
      Truth.not ((Condition.compares (· != .lt) cell low).and
        (Condition.compares (· != .gt) cell high)) := by
  rw [Truth.not_and]
  cases cell <;> simp [Condition.compares, Truth.not, bne]

theorem truth_complement (hopposite : p.operator.complement? = some opposite)
    (hvalues : p.values = [value]) (hread : (read p.field).isSome) (now : Instant) :
    ((p.withOperator opposite).condition now).truth read =
      Truth.not ((p.condition now).truth read) := by
  obtain ⟨field, operator, values, joins⟩ := p
  obtain ⟨stored, hstored⟩ := Option.isSome_iff_exists.mp hread
  subst hvalues
  cases operator <;> cases hopposite
  all_goals
    simp only [withOperator, condition, comparison, Operator.arity, Operator.isNegated,
      Condition.truth, hstored, List.length_singleton, ne_eq, not_true_eq_false, if_false,
      if_true, Bool.false_eq_true, Option.isNone_some, Truth.false_or, outside_eq]

theorem equality_absent {field : Field} (hread : read field = none) :
    (equality field value).truth read = none := by
  unfold equality
  split <;> simp [Condition.truth, Condition.compares, hread]

theorem truth_absent (hopposite : p.operator.complement? = some opposite)
    (hvalues : p.values = [value]) (hread : read p.field = none) (now : Instant) :
    (p.condition now).truth read = none ∧
      ((p.withOperator opposite).condition now).truth read = some true := by
  obtain ⟨field, operator, values, joins⟩ := p
  subst hvalues
  cases operator <;> cases hopposite
  all_goals
    simp [withOperator, condition, comparison, Operator.arity, Operator.isNegated,
      Condition.truth, Condition.fits, Condition.compares, hread, equality_absent hread,
      Truth.or, Truth.and, Truth.not]

theorem equality_known {field : Field} {stored : Datum} (hread : read field = some stored)
    (hdays : field.type = .date →
      (Condition.day stored).isSome ∧ (Condition.day value.datum).isSome) :
    ((equality field value).truth read).isSome := by
  unfold equality
  split
  case h_1 hdate =>
    obtain ⟨hstored, hbound⟩ := hdays hdate
    obtain ⟨day, hday⟩ := Option.isSome_iff_exists.mp hstored
    obtain ⟨day', hday'⟩ := Option.isSome_iff_exists.mp hbound
    simp [Condition.truth, hread, hday, hday']
  all_goals simp [Condition.truth, Condition.compares, hread]

/-- Only the day of a time can be unknown. -/
theorem truth_known (hopposite : p.operator.complement? = some opposite)
    (hvalues : p.values = [value]) {stored : Datum} (hread : read p.field = some stored)
    (hdays : p.operator = .is → p.field.type = .date →
      (Condition.day stored).isSome ∧ (Condition.day value.datum).isSome) (now : Instant) :
    ((p.condition now).truth read).isSome := by
  obtain ⟨field, operator, values, joins⟩ := p
  subst hvalues
  cases operator <;> cases hopposite
  case is => exact equality_known hread (hdays rfl)
  case contains => simp [condition, comparison, Operator.arity, Operator.isNegated,
    Condition.truth, Condition.fits, hread]
  case inLast =>
    exact Truth.isSome_and (by simp [Condition.compares, hread])
      (by simp [Condition.compares, hread])

theorem truth_unknown (hoperator : p.operator = .is) (hvalues : p.values = [value])
    (hdate : p.field.type = .date) (hday : Condition.day value.datum = none) (now : Instant) :
    (p.condition now).truth read = none := by
  obtain ⟨field, operator, values, joins⟩ := p
  subst hoperator hvalues
  simp [condition, comparison, Operator.arity, Operator.isNegated, equality, hdate,
    Condition.truth, hday]

end Predicate

theorem Rule.compileValue_complement {operator opposite : Operator}
    (h : operator.complement? = some opposite) {field : Field} {raw : Json} {value : Value} :
    compileValue field opposite raw = .ok value ↔ compileValue field operator raw = .ok value := by
  cases operator <;> cases h
  case inLast =>
    cases hunit : field.unit <;> simp [compileValue, Operator.operand, hunit]
  all_goals exact Iff.rfl

theorem Operator.matchKind_complement {operator opposite : Operator}
    (h : operator.complement? = some opposite) : opposite.matchKind = operator.matchKind := by
  cases operator <;> cases h <;> rfl

theorem Operator.arity_complement {operator opposite : Operator}
    (h : operator.complement? = some opposite) : operator.arity = 1 ∧ opposite.arity = 1 := by
  cases operator <;> cases h <;> exact ⟨rfl, rfl⟩

theorem RuleRecord.eq_withOperator {positive negative : RuleRecord} {p n : Predicate}
    (hp : positive.compile = .ok p) (hn : negative.compile = .ok n)
    (hopposite : p.operator.complement? = some n.operator) (hfield : n.field = p.field)
    (hvalues : negative.values = positive.values) : n = p.withOperator n.operator := by
  obtain ⟨harity, harity'⟩ := Operator.arity_complement hopposite
  obtain ⟨raw, value, hraw, hvalue, hread⟩ := value_of_compile hp harity
  obtain ⟨raw', value', hraw', hvalue', hread'⟩ := value_of_compile hn harity'
  have hjoins := (compile_eq_ok.mp hp).2.2
  have hjoins' := (compile_eq_ok.mp hn).2.2
  obtain rfl : raw' = raw := by simpa [hraw, hraw'] using hvalues
  rw [Rule.compileValue_complement hopposite, hfield] at hread'
  obtain rfl : value = value' := Except.ok.inj (hread.symm.trans hread')
  obtain ⟨field, operator, values, joins⟩ := n
  obtain ⟨field', operator', values', joins'⟩ := p
  simp_all [Predicate.withOperator]

theorem RuleRecord.type_of_matchKind {record : RuleRecord} {p : Predicate}
    (h : record.compile = .ok p) (hkind : p.operator.matchKind.isSome) : p.field.type = .text := by
  have haccepts := (compile_eq_ok.mp h).1.accepts
  unfold Operator.accepts at haccepts
  generalize p.operator = operator at haccepts hkind
  cases operator <;> simp_all [Operator.matchKind, Operator.types]

theorem RuleRecord.day_of_compile {record : RuleRecord} {p : Predicate}
    (h : record.compile = .ok p) (hoperator : p.operator = .is) {instant : Instant}
    (hvalue : p.values = [.instant instant]) : p.field.type = .date ∧
      Condition.day (.text (Timestamp.format instant)) =
        if Timestamp.IsCounted instant then
          some (.text (String.ofList (Timestamp.dateChars (Timestamp.readDate instant.date))))
        else none := by
  have harity : p.operator.arity = 1 := by rw [hoperator]; rfl
  obtain ⟨raw, value, -, hvalue', hread⟩ := value_of_compile h harity
  obtain rfl : value = .instant instant := by simpa [hvalue'] using hvalue
  rw [hoperator] at hread
  have hdate : p.field.type = .date := by
    cases htype : p.field.type with
    | date => rfl
    | _ => simp [Rule.compileValue, Operator.operand, Operator.matchKind, Value.read, htype,
        Except.map_eq_ok] at hread
  obtain ⟨text, read, -, hread, heq⟩ := (Rule.compileValue_eq_ok_of_date hdate rfl rfl).mp hread
  obtain rfl := Value.instant.inj heq
  rw [Condition.day, Timestamp.day?_format (Timestamp.proper_of_read? hread)]
  exact ⟨hdate, by split <;> rfl⟩

namespace Catalogue

variable {c : Catalogue} {user : Int} {song : SongRow}

theorem isSome_cell_of_text (hc : c.Invariant) (hsong : song ∈ c.songs) {field : Field}
    (htext : field.type = .text) : ((c.view user song).cell field).isSome := by
  have halbum := hc.linked.songAlbum song hsong
  have hartist := hc.linked.songArtist song hsong
  cases field <;> cases htext <;> simp_all [Row.cell, view]

theorem Dated.isSome_day (hc : c.Dated) (hsong : song ∈ c.songs) {field : Field}
    (hdate : field.type = .date) {stored : Datum}
    (hcell : (c.view user song).cell field = some stored) : (Condition.day stored).isSome := by
  have hrow := hc.songs song hsong
  have hstamped : ∃ text, stored = .text text ∧ Timestamp.IsStamp text := by
    cases field <;> cases hdate
    case createdAt => exact ⟨_, (Option.some.inj hcell).symm, hrow.createdAt⟩
    case updatedAt => exact ⟨_, (Option.some.inj hcell).symm, hrow.updatedAt⟩
    case playedAt =>
      obtain ⟨i, hi, rfl⟩ := Option.map_eq_some_iff.mp hcell
      exact ⟨_, rfl, hc.interactions i (List.mem_of_find?_eq_some hi)⟩
  obtain ⟨text, rfl, hstamp⟩ := hstamped
  rw [Condition.day, Option.isSome_map]
  exact hstamp.day?

section Opposites

variable (hc : c.Reachable) (hsong : song ∈ c.songs) {positive negative : RuleRecord}
  {p n : Predicate} (hp : positive.compile = .ok p) (hn : negative.compile = .ok n)
  (hopposite : p.operator.complement? = some n.operator) (hfield : n.field = p.field)
  (hvalues : negative.values = positive.values)

include hc hsong hp hn hopposite hfield hvalues

/-- The two rules are answered by the predicate and its opposite. -/
theorem answers_opposites (hfit : p.PatternsFit) {P N : Prop} (now : Instant)
    (hP : (p.condition now).truth (c.view user song).cell = some true ↔ P)
    (hN : ((p.withOperator n.operator).condition now).truth (c.view user song).cell =
      some true ↔ N) :
    c.Answers user now positive song.id P ∧ c.Answers user now negative song.id N := by
  have heq := RuleRecord.eq_withOperator hp hn hopposite hfield hvalues
  rw [heq] at hn
  have hfit' : (p.withOperator n.operator).PatternsFit := fun hkind =>
    hfit (Operator.matchKind_complement hopposite ▸ hkind)
  exact ⟨(answers_of_compile hc.invariant hsong hp hfit now).congr hP,
    (answers_of_compile hc.invariant hsong hn hfit' now).congr hN⟩

theorem refuses_opposites (hlong : ¬p.PatternsFit) (now : Instant) :
    c.Refuses user now positive ∧ c.Refuses user now negative := by
  have heq := RuleRecord.eq_withOperator hp hn hopposite hfield hvalues
  obtain ⟨raw, value, -, hvalue, -⟩ :=
    RuleRecord.value_of_compile hp (Operator.arity_complement hopposite).1
  obtain ⟨hkind, hlong⟩ := Classical.not_imp.mp hlong
  obtain ⟨long, hmem, hlong⟩ := by simpa using hlong
  obtain rfl : long = value := by simpa [hvalue] using hmem
  have hcell : ((c.view user song).cell p.field).isSome :=
    isSome_cell_of_text hc.invariant hsong (RuleRecord.type_of_matchKind hp hkind)
  rw [heq] at hn
  exact ⟨refuses_of_compile hc.invariant hsong hp hkind hvalue hlong hcell now,
    refuses_of_compile hc.invariant hsong hn (Operator.matchKind_complement hopposite ▸ hkind)
      hvalue hlong hcell now⟩

theorem answers_of_absent (hfit : p.PatternsFit)
    (habsent : (c.view user song).cell p.field = none) (now : Instant) :
    c.Answers user now positive song.id False ∧ c.Answers user now negative song.id True := by
  obtain ⟨raw, value, -, hvalue, -⟩ :=
    RuleRecord.value_of_compile hp (Operator.arity_complement hopposite).1
  obtain ⟨htruth, htruth'⟩ := Predicate.truth_absent hopposite hvalue habsent now
  exact answers_opposites hc hsong hp hn hopposite hfield hvalues hfit now (by simp [htruth])
    (by simp [htruth'])

theorem answers_of_known (hfit : p.PatternsFit)
    (hpresent : ((c.view user song).cell p.field).isSome) (hknown : p.DayKnown) (now : Instant) :
    ∃ condition, c.Answers user now positive song.id condition ∧
      c.Answers user now negative song.id ¬condition := by
  obtain ⟨raw, value, -, hvalue, hread⟩ :=
    RuleRecord.value_of_compile hp (Operator.arity_complement hopposite).1
  obtain ⟨stored, hstored⟩ := Option.isSome_iff_exists.mp hpresent
  have hsome : ((p.condition now).truth (c.view user song).cell).isSome := by
    refine Predicate.truth_known hopposite hvalue hstored (fun hoperator hdate => ?_) now
    refine ⟨hc.dated.isSome_day hsong hdate hstored, ?_⟩
    rw [hoperator] at hread
    obtain ⟨text, instant, -, -, rfl⟩ := (Rule.compileValue_eq_ok_of_date hdate rfl rfl).mp hread
    rw [Value.datum, (RuleRecord.day_of_compile hp hoperator hvalue).2,
      if_pos (hknown hoperator instant hvalue)]
    rfl
  obtain ⟨holds, htruth⟩ := Option.isSome_iff_exists.mp hsome
  have htruth' := Predicate.truth_complement hopposite hvalue hpresent now
  rw [htruth] at htruth'
  exact ⟨holds = true, answers_opposites hc hsong hp hn hopposite hfield hvalues hfit now
    (by simp [htruth]) (by simp [htruth', Truth.not])⟩

theorem answers_of_unknown (hpresent : ((c.view user song).cell p.field).isSome)
    (hunknown : ¬p.DayKnown) (now : Instant) :
    c.Answers user now positive song.id False ∧ c.Answers user now negative song.id False := by
  obtain ⟨hoperator, instant, hvalue, huncounted⟩ :
      p.operator = .is ∧ ∃ instant, p.values = [.instant instant] ∧
        ¬Timestamp.IsCounted instant := by simpa [Predicate.DayKnown] using hunknown
  obtain ⟨hdate, hday⟩ := RuleRecord.day_of_compile hp hoperator hvalue
  have hfit : p.PatternsFit := Predicate.patternsFit_of_matchKind (by rw [hoperator]; rfl)
  have htruth : (p.condition now).truth (c.view user song).cell = none :=
    Predicate.truth_unknown hoperator hvalue hdate (hday.trans (if_neg huncounted)) now
  have htruth' := Predicate.truth_complement hopposite hvalue hpresent now
  rw [htruth] at htruth'
  exact answers_opposites hc hsong hp hn hopposite hfield hvalues hfit now (by simp [htruth])
    (by simp [htruth', Truth.not])

/-- A rule matches the songs that have the field and that its opposite does not match, and the
opposite rule all others. That is so unless a pattern is too long, which the database refuses
for either rule, or a day is asked for that the database does not know, which matches neither. -/
theorem complementary_rules (now : Instant) :
    (p.PatternsFit → (c.view user song).cell p.field = none →
      c.Answers user now positive song.id False ∧ c.Answers user now negative song.id True) ∧
    (p.PatternsFit → ((c.view user song).cell p.field).isSome → p.DayKnown →
      ∃ condition, c.Answers user now positive song.id condition ∧
        c.Answers user now negative song.id ¬condition) ∧
    (((c.view user song).cell p.field).isSome → ¬p.DayKnown →
      c.Answers user now positive song.id False ∧ c.Answers user now negative song.id False) ∧
    (¬p.PatternsFit → c.Refuses user now positive ∧ c.Refuses user now negative) :=
  ⟨fun hfit habsent =>
      answers_of_absent hc hsong hp hn hopposite hfield hvalues hfit habsent now,
    fun hfit hpresent hknown =>
      answers_of_known hc hsong hp hn hopposite hfield hvalues hfit hpresent hknown now,
    fun hpresent hunknown =>
      answers_of_unknown hc hsong hp hn hopposite hfield hvalues hpresent hunknown now,
    fun hlong => refuses_opposites hc hsong hp hn hopposite hfield hvalues hlong now⟩

end Opposites

def createdOn (operator : Operator) (instant : Instant) : Predicate :=
  ⟨.createdAt, operator, [.instant instant], .none⟩

theorem compile_createdOn {operator : Operator} {text : String} {instant : Instant}
    (hoperator : operator = .is ∨ operator = .isNot) (h : Timestamp.read? text = some instant) :
    (literalRule .createdAt operator text).compile = .ok (createdOn operator instant) := by
  rcases hoperator with rfl | rfl <;>
    exact (asks_literalRule .createdAt _ text).compile_instant rfl rfl rfl rfl h

/-- The song was created on the first day of 1970. -/
theorem complementary_rules_of_1970 : ∃ song ∈ (ofSong "A" "B" "C").songs, ∃ condition,
    (ofSong "A" "B" "C").Answers 1 ⟨0, 0⟩ (literalRule .createdAt .is "1970-01-01") song.id
      condition ∧
    (ofSong "A" "B" "C").Answers 1 ⟨0, 0⟩ (literalRule .createdAt .isNot "1970-01-01") song.id
      ¬condition := by
  have hne : (ofSong "A" "B" "C").songs ≠ [] := by decide +kernel
  obtain ⟨song, hsong⟩ := List.exists_mem_of_ne_nil _ hne
  have hread : Timestamp.read? "1970-01-01" = some ⟨0, 0⟩ := by decide +kernel
  obtain ⟨-, hknown, -, -⟩ := complementary_rules (reachable_ofSong "A" "B" "C") hsong
    (compile_createdOn (.inl rfl) hread) (compile_createdOn (.inr rfl) hread) rfl rfl rfl ⟨0, 0⟩
  refine ⟨song, hsong, hknown nofun rfl ?_⟩
  rintro - instant hvalue
  obtain rfl : (⟨0, 0⟩ : Instant) = instant := by simpa [createdOn] using hvalue
  decide +kernel

/-- No day is that of a leap second, and every day is another, but neither rule matches. -/
theorem leap_second_unmatched : ∃ song ∈ (ofSong "A" "B" "C").songs,
    (ofSong "A" "B" "C").Answers 1 ⟨0, 0⟩ (literalRule .createdAt .is "2023-12-31T23:59:60Z")
      song.id False ∧
    (ofSong "A" "B" "C").Answers 1 ⟨0, 0⟩ (literalRule .createdAt .isNot "2023-12-31T23:59:60Z")
      song.id False := by
  have hne : (ofSong "A" "B" "C").songs ≠ [] := by decide +kernel
  obtain ⟨song, hsong⟩ := List.exists_mem_of_ne_nil _ hne
  have hread : Timestamp.read? "2023-12-31T23:59:60Z" = some ⟨1704067199, 1000000000⟩ := by
    decide +kernel
  have huncounted : ¬Timestamp.IsCounted ⟨1704067199, 1000000000⟩ := by decide +kernel
  refine ⟨song, hsong, answers_of_unknown (reachable_ofSong "A" "B" "C") hsong
    (compile_createdOn (.inl rfl) hread) (compile_createdOn (.inr rfl) hread) rfl rfl rfl rfl
    (fun hknown => huncounted (hknown rfl _ rfl)) ⟨0, 0⟩⟩

end Catalogue

end Setlist
