import Setlist.Proofs.Catalogue.Rules
import Setlist.Proofs.Rule.Verdict

/-! # Rules that compare

Three rules compare a field with bounds, in one order of all that is stored and bound. So a
song lies in a range when it is on no side of it, and of a single bound each song that has the
field is on one side, on the other or on the bound itself. A song without the field is nowhere.
-/

namespace Setlist

def Operator.isOrdering : Operator → Bool
  | isLessThan | isGreaterThan | isBetween => true
  | _ => false

namespace Operator

variable {operator : Operator} {field : Field}

theorem accepts_of_isOrdering (h : operator.isOrdering = true) :
    operator.accepts field = true ↔ field.type ≠ .text := by
  cases operator <;> cases h <;> cases htype : field.type <;>
    simp [accepts, types, operand, htype]

end Operator

theorem Rule.compileValue_of_isOrdering {field : Field} {operator : Operator}
    (h : operator.isOrdering = true) (raw : Json) :
    compileValue field operator raw = Value.read field.type raw := by
  cases operator <;> first | rfl | cases h

theorem Value.compare?_self (value : Value) : value.compare? value ≠ some .gt := by
  cases value with
  | number x => simp [compare?, Binary64.compare?]
  | instant time => simp [compare?, Instant.compare]
  | pattern | text | window => simp [compare?]

theorem Rule.rangeHolds_self {field : Field} {raw : Json} {value : Value}
    (h : Value.read field.type raw = .ok value) : RangeHolds field [raw, raw] := by
  rintro low high hends
  obtain ⟨rfl, rfl⟩ : raw = low ∧ raw = high := by simpa using hends
  rw [checkRange_of_reads (reads_isBetween.mpr h) (reads_isBetween.mpr h),
    if_neg value.compare?_self]

namespace RuleRecord

variable {record : RuleRecord} {field : Field} {operator : Operator} {raws : List Json}
  {p : Predicate}

theorem Asks.reads_of_compile (h : record.Asks field operator raws)
    (hordering : operator.isOrdering = true) (hcompile : record.compile = .ok p) :
    field.type ≠ .text ∧
      List.Forall₂ (fun raw value => Value.read field.type raw = .ok value) raws p.values := by
  obtain ⟨hshaped, hread, -⟩ := compile_eq_ok.mp hcompile
  obtain rfl : p.field = field := Option.some.inj (hshaped.isField.symm.trans h.field)
  obtain rfl : p.operator = operator := Option.some.inj (hshaped.isOperator.symm.trans h.operator)
  rw [h.values] at hread
  simp only [Rule.compileValue_of_isOrdering hordering] at hread
  exact ⟨(Operator.accepts_of_isOrdering hordering).mp hshaped.accepts, hread⟩

theorem Asks.exists_read {raw : Json} (h : record.Asks field operator (raw :: raws))
    (hordering : operator.isOrdering = true) (hcompile : record.compile = .ok p) :
    field.type ≠ .text ∧ ∃ value, Value.read field.type raw = .ok value := by
  obtain ⟨hfield, hreads⟩ := h.reads_of_compile hordering hcompile
  obtain ⟨value, _, hread, -⟩ := List.forall₂_cons_left_iff.mp hreads
  exact ⟨hfield, value, hread⟩

theorem Asks.compile_of_reads {values : List Value} (h : record.Asks field operator raws)
    (hordering : operator.isOrdering = true) (hfield : field.type ≠ .text)
    (harity : raws.length = operator.arity)
    (hrange : operator = .isBetween → Rule.RangeHolds field raws)
    (hread : List.Forall₂ (fun raw value => Value.read field.type raw = .ok value) raws values) :
    record.compile = .ok ⟨field, operator, values, .ofOption field.relation⟩ := by
  refine h.compile_eq ((Operator.accepts_of_isOrdering hordering).mpr hfield) harity hrange ?_
  simpa only [Rule.compileValue_of_isOrdering hordering] using hread

end RuleRecord

namespace Predicate

variable {field : Field} {low high value : Value} {joins : Joins} {read : Field → Cell}
  {now : Instant}

theorem truth_less_iff :
    ((Predicate.mk field .isLessThan [value] joins).condition now).truth read = some true ↔
      ∃ stored ∈ read field, stored.compare value.datum = .lt := by
  simp [condition, comparison, Operator.arity, Operator.isNegated, Condition.truth,
    Condition.compares]

theorem truth_greater_iff :
    ((Predicate.mk field .isGreaterThan [value] joins).condition now).truth read = some true ↔
      ∃ stored ∈ read field, stored.compare value.datum = .gt := by
  simp [condition, comparison, Operator.arity, Operator.isNegated, Condition.truth,
    Condition.compares]

theorem truth_between_iff :
    ((Predicate.mk field .isBetween [low, high] joins).condition now).truth read = some true ↔
      ∃ stored ∈ read field, stored.compare low.datum ≠ .lt ∧ stored.compare high.datum ≠ .gt := by
  cases hread : read field <;>
    simp [condition, comparison, Operator.arity, Operator.isNegated, Condition.truth,
      Condition.compares, hread, Truth.and_eq_true]

end Predicate

namespace Catalogue

variable {c : Catalogue} {user : Int} {song : SongRow} {field : Field} {now : Instant}
  {less between greater : RuleRecord} {low high raw : Json} {bottom top value : Value}

section Answers

variable (hc : c.Invariant) (hsong : song ∈ c.songs) (hfield : field.type ≠ .text)

include hc hsong hfield

theorem answers_less (h : less.Asks field .isLessThan [raw])
    (hread : Value.read field.type raw = .ok value) :
    c.Answers user now less song.id
      (∃ stored ∈ (c.view user song).cell field, stored.compare value.datum = .lt) :=
  (answers_of_compile hc hsong (h.compile_of_reads rfl hfield rfl nofun (.cons hread .nil))
    (Predicate.patternsFit_of_matchKind rfl) now).congr Predicate.truth_less_iff

theorem answers_greater (h : greater.Asks field .isGreaterThan [raw])
    (hread : Value.read field.type raw = .ok value) :
    c.Answers user now greater song.id
      (∃ stored ∈ (c.view user song).cell field, stored.compare value.datum = .gt) :=
  (answers_of_compile hc hsong (h.compile_of_reads rfl hfield rfl nofun (.cons hread .nil))
    (Predicate.patternsFit_of_matchKind rfl) now).congr Predicate.truth_greater_iff

theorem answers_between (h : between.Asks field .isBetween [low, high])
    (hrange : Rule.RangeHolds field [low, high]) (hlow : Value.read field.type low = .ok bottom)
    (hhigh : Value.read field.type high = .ok top) :
    c.Answers user now between song.id (∃ stored ∈ (c.view user song).cell field,
      stored.compare bottom.datum ≠ .lt ∧ stored.compare top.datum ≠ .gt) :=
  (answers_of_compile hc hsong
    (h.compile_of_reads rfl hfield rfl (fun _ => hrange) (.cons hlow (.cons hhigh .nil)))
    (Predicate.patternsFit_of_matchKind rfl) now).congr Predicate.truth_between_iff

end Answers

section Orderings

variable (hc : c.Invariant) (hsong : song ∈ c.songs)

include hc hsong

theorem answers_range {p : Predicate} (hbetween : between.Asks field .isBetween [low, high])
    (hless : less.Asks field .isLessThan [low])
    (hgreater : greater.Asks field .isGreaterThan [high]) (hcompile : between.compile = .ok p) :
    ∃ below above, c.Answers user now less song.id below ∧
      c.Answers user now greater song.id above ∧
      c.Answers user now between song.id
        (((c.view user song).cell field).isSome ∧ ¬below ∧ ¬above) := by
  obtain ⟨hfield, hreads⟩ := hbetween.reads_of_compile rfl hcompile
  obtain ⟨bottom, _, hlow, hrest, -⟩ := List.forall₂_cons_left_iff.mp hreads
  obtain ⟨top, _, hhigh, -, -⟩ := List.forall₂_cons_left_iff.mp hrest
  have hrange : Rule.RangeHolds field [low, high] := by
    have hshaped := (RuleRecord.compile_eq_ok.mp hcompile).1
    have heq : p.field = field := Option.some.inj (hshaped.isField.symm.trans hbetween.field)
    have hoperator : p.operator = .isBetween :=
      Option.some.inj (hshaped.isOperator.symm.trans hbetween.operator)
    simpa only [heq, hbetween.values] using hshaped.range hoperator
  refine ⟨_, _, answers_less hc hsong hfield hless hlow,
    answers_greater hc hsong hfield hgreater hhigh,
    (answers_between hc hsong hfield hbetween hrange hlow hhigh).congr ?_⟩
  cases (c.view user song).cell field <;> simp

/-- With one bound that any of the three rules accepts, the song is on one side, on the other or
on the bound. -/
theorem answers_one_bound (hless : less.Asks field .isLessThan [raw])
    (hbetween : between.Asks field .isBetween [raw, raw])
    (hgreater : greater.Asks field .isGreaterThan [raw])
    (hcompile : ∃ p, less.compile = .ok p ∨ between.compile = .ok p ∨ greater.compile = .ok p) :
    ∃ ordering? : Option Ordering, ordering?.isSome = ((c.view user song).cell field).isSome ∧
      c.Answers user now less song.id (ordering? = some .lt) ∧
      c.Answers user now between song.id (ordering? = some .eq) ∧
      c.Answers user now greater song.id (ordering? = some .gt) := by
  obtain ⟨hfield, value, hread⟩ :
      field.type ≠ .text ∧ ∃ value, Value.read field.type raw = .ok value := by
    obtain ⟨p, hcompile | hcompile | hcompile⟩ := hcompile
    exacts [hless.exists_read rfl hcompile, hbetween.exists_read rfl hcompile,
      hgreater.exists_read rfl hcompile]
  refine ⟨((c.view user song).cell field).map (·.compare value.datum), Option.isSome_map,
    (answers_less hc hsong hfield hless hread).congr ?_,
    (answers_between hc hsong hfield hbetween (Rule.rangeHolds_self hread) hread hread).congr ?_,
    (answers_greater hc hsong hfield hgreater hread).congr ?_⟩
  · simp [Option.map_eq_some_iff]
  · simp only [Option.map_eq_some_iff, Option.mem_def]
    refine exists_congr fun stored => and_congr_right fun _ => ?_
    cases stored.compare value.datum <;> decide
  · simp [Option.map_eq_some_iff]

theorem answers_plays {record : RuleRecord} {p : Predicate} (hcompile : record.compile = .ok p)
    (hfield : p.field = .playCount) :
    c.Answers user now record song.id ((p.condition now).truth (fun _ =>
      some (.integer (((c.interaction? user song.id).map (·.playCount)).getD 0))) =
        some true) := by
  have hkind : p.operator.matchKind = none := by
    have haccepts := (RuleRecord.compile_eq_ok.mp hcompile).1.accepts
    rw [hfield] at haccepts
    cases hoperator : p.operator <;> simp_all [Operator.accepts, Operator.matchKind,
      Operator.types, Field.type]
  refine (answers_of_compile hc hsong hcompile (Predicate.patternsFit_of_matchKind hkind)
    now).congr ?_
  rw [Predicate.truth_congr ?_ now]
  rw [hfield]
  rfl

/-- A song that was never played is matched as one whose plays are zero, wherever that is. -/
theorem answers_unplayed {d : Catalogue} {other : Int} {played : SongRow} {i : Interaction}
    (hd : d.Invariant) (hplayed : played ∈ d.songs) (hnone : c.interaction? user song.id = none)
    (hsome : d.interaction? other played.id = some i) (hcount : i.playCount = 0) :
    (c.view user song).cell .playCount = (d.view other played).cell .playCount ∧
      ∀ (record : RuleRecord) (p : Predicate), record.compile = .ok p → p.field = .playCount →
        ∃ condition, c.Answers user now record song.id condition ∧
          d.Answers other now record played.id condition := by
  have hcounts : ((c.interaction? user song.id).map (·.playCount)).getD 0 =
      ((d.interaction? other played.id).map (·.playCount)).getD 0 := by
    rw [hnone, hsome]
    exact hcount.symm
  refine ⟨congrArg (fun count => some (Datum.integer count)) hcounts,
    fun record p hcompile hfield => ⟨_, answers_plays hc hsong hcompile hfield, ?_⟩⟩
  rw [hcounts]
  exact answers_plays hd hplayed hcompile hfield

/-- The rules that compare fit together: a song in a range is on neither side of it, one bound
has each song that has the field on one side, on the other or on itself, and none of the rules
matches a song without the field. No plays are as good as none recorded. -/
theorem ordering_rules (user : Int) (now : Instant) :
    (∀ (field : Field) (low high : Json) (less between greater : RuleRecord),
      less.Asks field .isLessThan [low] → between.Asks field .isBetween [low, high] →
      greater.Asks field .isGreaterThan [high] → (∃ p, between.compile = .ok p) →
      ∃ below above, c.Answers user now less song.id below ∧
        c.Answers user now greater song.id above ∧
        c.Answers user now between song.id
          (((c.view user song).cell field).isSome ∧ ¬below ∧ ¬above)) ∧
    (∀ (field : Field) (raw : Json) (less between greater : RuleRecord),
      less.Asks field .isLessThan [raw] → between.Asks field .isBetween [raw, raw] →
      greater.Asks field .isGreaterThan [raw] →
      (∃ p, less.compile = .ok p ∨ between.compile = .ok p ∨ greater.compile = .ok p) →
      (((c.view user song).cell field).isSome → ∃ ordering : Ordering,
        c.Answers user now less song.id (ordering = .lt) ∧
        c.Answers user now between song.id (ordering = .eq) ∧
        c.Answers user now greater song.id (ordering = .gt)) ∧
      ((c.view user song).cell field = none → c.Answers user now less song.id False ∧
        c.Answers user now between song.id False ∧ c.Answers user now greater song.id False)) ∧
    (∀ (d : Catalogue) (other : Int) (played : SongRow) (i : Interaction), d.Invariant →
      played ∈ d.songs → c.interaction? user song.id = none →
      d.interaction? other played.id = some i → i.playCount = 0 →
      (c.view user song).cell .playCount = (d.view other played).cell .playCount ∧
      ∀ (record : RuleRecord) (p : Predicate), record.compile = .ok p → p.field = .playCount →
        ∃ condition, c.Answers user now record song.id condition ∧
          d.Answers other now record played.id condition) := by
  refine ⟨fun field low high less between greater hless hbetween hgreater ⟨p, hcompile⟩ =>
    answers_range hc hsong hbetween hless hgreater hcompile, ?_,
    fun d other played i hd hplayed hnone hsome hcount =>
      answers_unplayed hc hsong hd hplayed hnone hsome hcount⟩
  intro field raw less between greater hless hbetween hgreater hcompile
  obtain ⟨ordering?, hpresent, hanswers⟩ :=
    answers_one_bound hc hsong hless hbetween hgreater hcompile
  cases ordering? with
  | none =>
    rw [Option.isSome_none] at hpresent
    exact ⟨fun h => absurd (hpresent.trans h) Bool.false_ne_true, fun _ => by simpa using hanswers⟩
  | some ordering =>
    refine ⟨fun _ => ⟨ordering, by simpa using hanswers⟩, fun hnone => ?_⟩
    simp [hnone] at hpresent

end Orderings

/-- The plays of a song that no one has played are below one. -/
theorem ordering_rules_of_one : ∃ song ∈ (ofSong "A" "B" "C").songs,
    (ofSong "A" "B" "C").interaction? 1 song.id = none ∧ ∃ ordering : Ordering,
      (ofSong "A" "B" "C").Answers 1 ⟨0, 0⟩ (literalRule .playCount .isLessThan "1") song.id
        (ordering = .lt) ∧
      (ofSong "A" "B" "C").Answers 1 ⟨0, 0⟩
        ⟨none, .named Field.playCount.name, Operator.isBetween.name, [.string "1", .string "1"]⟩
        song.id (ordering = .eq) ∧
      (ofSong "A" "B" "C").Answers 1 ⟨0, 0⟩ (literalRule .playCount .isGreaterThan "1") song.id
        (ordering = .gt) ∧ ordering = .lt := by
  have hids : (ofSong "A" "B" "C").songs.map (·.id) = ["song"] := by decide +kernel
  obtain ⟨song, hsong, hid⟩ : ∃ song ∈ (ofSong "A" "B" "C").songs, song.id = "song" :=
    List.mem_map.mp (hids ▸ List.mem_singleton_self "song")
  have hunplayed : (ofSong "A" "B" "C").interaction? 1 song.id = none := by
    rw [interaction?, show (ofSong "A" "B" "C").interactions = [] by decide +kernel]
    rfl
  have hnumeral : Binary64.read? (Text.trim "1") = some (.ofInt 1) := by decide +kernel
  have hread : Value.read .number (.string "1") = .ok (.number (.ofInt 1)) :=
    Value.read_eq_ok.mpr (.numeral hnumeral (by decide +kernel))
  have hless := asks_literalRule .playCount .isLessThan "1"
  obtain ⟨-, hbound, -⟩ := ordering_rules (reachable_ofSong "A" "B" "C").invariant hsong 1 ⟨0, 0⟩
  have hbetween : RuleRecord.Asks ⟨none, .named Field.playCount.name, Operator.isBetween.name,
      [.string "1", .string "1"]⟩ .playCount .isBetween [.string "1", .string "1"] :=
    ⟨Field.find?_name .playCount, Operator.find?_name .isBetween, rfl⟩
  have hcompile := hless.compile_of_reads rfl nofun rfl nofun (.cons hread .nil)
  obtain ⟨ordering, hlt, heq, hgt⟩ := (hbound .playCount (.string "1") _ _ _ hless hbetween
    (asks_literalRule .playCount .isGreaterThan "1") ⟨_, .inl hcompile⟩).1 rfl
  refine ⟨song, hsong, hunplayed, ordering, hlt, heq, hgt, ?_⟩
  obtain ⟨e, hstrict, -, hmatched⟩ := hlt
  obtain rfl := Except.ok.inj ((compileStrict_single 1 hcompile).symm.trans hstrict)
  refine hmatched.mp ?_
  rw [hid]
  decide +kernel

end Catalogue

end Setlist
