import Setlist.Proofs.Catalogue.Rules

/-! # Date rules

Rules compare dates by the texts that they are stored as. These are in the order of the times
while years have four digits. A bound is written without its fraction, and a bound past the
year 9999 with a sign, which puts it before all stored times.
-/

namespace Setlist

open Timestamp

theorem Condition.compares_format (test : Ordering → Bool) (stored bound : Instant) :
    compares test (some (.text (format stored))) (.text (format bound)) =
      some (test (Ord.compare (format stored) (format bound))) :=
  rfl

namespace Predicate

variable {p : Predicate} {stored bound low high : Instant} {read : Field → Cell}
variable (hread : read p.field = some (.text (format stored))) (now : Instant)

include hread

theorem truth_isGreaterThan (hoperator : p.operator = .isGreaterThan)
    (hvalues : p.values = [.instant bound]) : (p.condition now).truth read = some true ↔
      Ord.compare (format stored) (format bound) = .gt := by
  simp [condition, comparison, hoperator, hvalues, Operator.arity, Operator.isNegated,
    Condition.truth, hread, Value.datum, Condition.compares_format]

theorem truth_isLessThan (hoperator : p.operator = .isLessThan)
    (hvalues : p.values = [.instant bound]) : (p.condition now).truth read = some true ↔
      Ord.compare (format stored) (format bound) = .lt := by
  simp [condition, comparison, hoperator, hvalues, Operator.arity, Operator.isNegated,
    Condition.truth, hread, Value.datum, Condition.compares_format]

theorem truth_isBetween (hoperator : p.operator = .isBetween)
    (hvalues : p.values = [.instant low, .instant high]) :
    (p.condition now).truth read = some true ↔
      Ord.compare (format stored) (format low) ≠ .lt ∧
        Ord.compare (format stored) (format high) ≠ .gt := by
  simp [condition, comparison, hoperator, hvalues, Operator.arity, Operator.isNegated,
    Condition.truth, hread, Value.datum, Condition.compares_format, Truth.and_eq_true]

/-- A time in a year of four digits is on the day of a bound, as far as the database knows
these days, which are not known in leap seconds. -/
theorem truth_is (hdate : p.field.type = .date) (hoperator : p.operator = .is)
    (hvalues : p.values = [.instant bound]) (hstored : stored.Proper)
    (hyear : stored.date.HasPlainYear) (hbound : bound.Proper) :
    (p.condition now).truth read = some true ↔
      stored.date = bound.date ∧ stored.leaps = 0 ∧ bound.leaps = 0 := by
  have hcondition : p.condition now = .sameDay p.field (.text (format bound)) := by
    simp [condition, comparison, hoperator, hvalues, Operator.arity, Operator.isNegated, equality,
      hdate, Value.datum]
  rw [hcondition, Condition.truth, hread]
  simp only [Option.bind_some, Condition.day, day?_format hstored, day?_format hbound,
    isCounted_iff_of_plain hyear]
  by_cases hleaps : stored.leaps = 0
  · by_cases hcounted : IsCounted bound
    · have hdays := dateChars_readDate_eq_iff stored.exists_date bound.exists_date hyear
        hcounted.2.1
      rw [← String.ofList_inj] at hdays
      simp [hleaps, hcounted, hcounted.2.2, hdays]
    · have hother : stored.date = bound.date → bound.leaps ≠ 0 := by
        intro hsame hbound
        rw [hsame] at hyear
        exact hcounted ((isCounted_iff_of_plain hyear).mpr hbound)
      simpa [hleaps, hcounted] using hother
  · simp [hleaps]

end Predicate

namespace Catalogue

variable {c : Catalogue} {user : Int} {song : SongRow} {record : RuleRecord} {p : Predicate}

theorem answers_bound (hc : c.Invariant) (hsong : song ∈ c.songs)
    (hcompile : record.compile = .ok p) (hdate : p.field.type = .date)
    (harity : p.operator.arity = 1) (hoperand : p.operator.operand = .fieldValue)
    (hkind : p.operator.matchKind = none) (now : Instant) : ∃ text bound,
      record.values = [.string text] ∧ read? text = some bound ∧ p.values = [.instant bound] ∧
      c.Answers user now record song.id
        ((p.condition now).truth (c.view user song).cell = some true) := by
  obtain ⟨text, bound, htext, hread, hvalues⟩ :=
    RuleRecord.instant_of_compile hcompile hdate harity hoperand hkind
  exact ⟨text, bound, htext, hread, hvalues,
    answers_of_compile hc hsong hcompile (Predicate.patternsFit_of_matchKind hkind) now⟩

section Stored

variable (hc : c.Invariant) (hsong : song ∈ c.songs) (hcompile : record.compile = .ok p)
  (hdate : p.field.type = .date) {stored : Instant} (hstored : stored.Proper)
  (hwhole : stored.truncated = stored) (hyear : stored.date.HasPlainYear)
  (hcell : (c.view user song).cell p.field = some (.text (format stored)))

include hc hsong hcompile hdate hstored hwhole hyear hcell

theorem answers_isGreaterThan (hoperator : p.operator = .isGreaterThan) (now : Instant) :
    ∃ text bound, record.values = [.string text] ∧ read? text = some bound ∧
      c.Answers user now record song.id
        (stored.compare bound = .gt ∨ 9999 < bound.date.year) := by
  obtain ⟨text, bound, htext, hread, hvalues, hanswers⟩ := answers_bound hc hsong hcompile hdate
    (by rw [hoperator]; rfl) (by rw [hoperator]; rfl) (by rw [hoperator]; rfl) now
  refine ⟨text, bound, htext, hread, hanswers.congr ?_⟩
  rw [Predicate.truth_isGreaterThan hcell now hoperator hvalues,
    compare_format_eq_gt hstored hwhole hyear (proper_of_read? hread)]

theorem answers_isLessThan (hoperator : p.operator = .isLessThan) (now : Instant) :
    ∃ text bound, record.values = [.string text] ∧ read? text = some bound ∧
      c.Answers user now record song.id
        (stored.compare bound.truncated = .lt ∧ bound.date.year ≤ 9999) := by
  obtain ⟨text, bound, htext, hread, hvalues, hanswers⟩ := answers_bound hc hsong hcompile hdate
    (by rw [hoperator]; rfl) (by rw [hoperator]; rfl) (by rw [hoperator]; rfl) now
  refine ⟨text, bound, htext, hread, hanswers.congr ?_⟩
  rw [Predicate.truth_isLessThan hcell now hoperator hvalues,
    compare_format_eq_lt hstored hwhole hyear (proper_of_read? hread)]

theorem answers_isBetween (hoperator : p.operator = .isBetween) (now : Instant) :
    ∃ text text' low high, record.values = [.string text, .string text'] ∧
      read? text = some low ∧ read? text' = some high ∧ low.compare high ≠ .gt ∧
      c.Answers user now record song.id (stored.compare low.truncated ≠ .lt ∧
        stored.compare high ≠ .gt ∧ high.date.year ≤ 9999) := by
  have hkind : p.operator.matchKind = none := by rw [hoperator]; rfl
  obtain ⟨text, text', low, high, htexts, hlow, hhigh, hvalues, hrange⟩ :=
    RuleRecord.range_of_compile hcompile hdate hoperator
  refine ⟨text, text', low, high, htexts, hlow, hhigh, hrange, (answers_of_compile hc hsong
    hcompile (Predicate.patternsFit_of_matchKind hkind) now).congr ?_⟩
  have hyears : high.date.year ≤ 9999 → low.date.year ≤ 9999 := by
    have hseconds : low.seconds ≤ high.seconds := by
      rw [ne_eq, Instant.compare_eq_gt] at hrange
      omega
    exact (Instant.year_date_le hseconds).trans
  rw [Predicate.truth_isBetween hcell now hoperator hvalues, ne_eq, ne_eq,
    compare_format_eq_lt hstored hwhole hyear (proper_of_read? hlow),
    compare_format_eq_gt hstored hwhole hyear (proper_of_read? hhigh)]
  constructor
  · rintro ⟨hafter, hbefore⟩
    have hnear : high.date.year ≤ 9999 := Int.not_lt.mp fun hfar => hbefore (.inr hfar)
    exact ⟨fun hless => hafter ⟨hless, hyears hnear⟩, fun hgt => hbefore (.inl hgt), hnear⟩
  · rintro ⟨hafter, hbefore, hnear⟩
    exact ⟨fun hless => hafter hless.1, fun hgt => hgt.elim hbefore (Int.not_lt.mpr hnear)⟩

omit hwhole in
theorem answers_is (hoperator : p.operator = .is) (now : Instant) :
    ∃ text bound, record.values = [.string text] ∧ read? text = some bound ∧
      c.Answers user now record song.id
        (stored.date = bound.date ∧ stored.leaps = 0 ∧ bound.leaps = 0) := by
  obtain ⟨text, bound, htext, hread, hvalues, hanswers⟩ := answers_bound hc hsong hcompile hdate
    (by rw [hoperator]; rfl) (by rw [hoperator]; rfl) (by rw [hoperator]; rfl) now
  exact ⟨text, bound, htext, hread, hanswers.congr
    (Predicate.truth_is hcell now hdate hoperator hvalues hstored hyear (proper_of_read? hread))⟩

/-- Rules follow the clock up to the second and the year 9999: a bound loses its fraction where
times before it are asked for, one past the year 9999 counts as before all times, and nothing
is on the day of a leap second. -/
theorem date_rules (now : Instant) :
    (p.operator = .isGreaterThan → ∃ text bound, record.values = [.string text] ∧
      read? text = some bound ∧ c.Answers user now record song.id
        (stored.compare bound = .gt ∨ 9999 < bound.date.year)) ∧
    (p.operator = .isLessThan → ∃ text bound, record.values = [.string text] ∧
      read? text = some bound ∧ c.Answers user now record song.id
        (stored.compare bound.truncated = .lt ∧ bound.date.year ≤ 9999)) ∧
    (p.operator = .isBetween → ∃ text text' low high,
      record.values = [.string text, .string text'] ∧ read? text = some low ∧
      read? text' = some high ∧ low.compare high ≠ .gt ∧
      c.Answers user now record song.id (stored.compare low.truncated ≠ .lt ∧
        stored.compare high ≠ .gt ∧ high.date.year ≤ 9999)) ∧
    (p.operator = .is → ∃ text bound, record.values = [.string text] ∧
      read? text = some bound ∧ c.Answers user now record song.id
        (stored.date = bound.date ∧ stored.leaps = 0 ∧ bound.leaps = 0)) :=
  ⟨fun h => answers_isGreaterThan hc hsong hcompile hdate hstored hwhole hyear hcell h now,
    fun h => answers_isLessThan hc hsong hcompile hdate hstored hwhole hyear hcell h now,
    fun h => answers_isBetween hc hsong hcompile hdate hstored hwhole hyear hcell h now,
    fun h => answers_is hc hsong hcompile hdate hstored hyear hcell h now⟩

end Stored

theorem exists_created : ∃ song ∈ (ofSong "A" "B" "C").songs,
    ((ofSong "A" "B" "C").view 1 song).cell .createdAt = some (.text (format ⟨0, 0⟩)) := by
  have hcreated : (ofSong "A" "B" "C").songs.map (·.createdAt) = [format ⟨0, 0⟩] := by
    decide +kernel
  have hmem : format ⟨0, 0⟩ ∈ (ofSong "A" "B" "C").songs.map (·.createdAt) := by
    rw [hcreated]
    exact List.mem_singleton_self _
  obtain ⟨song, hsong, htime⟩ := List.mem_map.mp hmem
  exact ⟨song, hsong, by rw [Row.cell, view, htime]⟩

/-- A song that was created in the first second of 1970 was created before its second day. -/
theorem date_rules_of_1970 : ∃ song ∈ (ofSong "A" "B" "C").songs,
    (ofSong "A" "B" "C").Answers 1 ⟨0, 0⟩ (literalRule .createdAt .isLessThan "1970-01-02") song.id
      True := by
  obtain ⟨song, hsong, hcell⟩ := exists_created
  have hread : read? "1970-01-02" = some ⟨86400, 0⟩ := by decide +kernel
  have hcompile := (asks_literalRule .createdAt .isLessThan "1970-01-02").compile_instant rfl rfl
    rfl rfl hread
  obtain ⟨-, hless, -, -⟩ := date_rules (reachable_ofSong "A" "B" "C").invariant hsong hcompile
    rfl (Instant.proper_of_whole 0) (by decide) (by decide +kernel) hcell ⟨0, 0⟩
  obtain ⟨text, bound, htext, hbound, hanswers⟩ := hless rfl
  obtain rfl : "1970-01-02" = text := by simpa [literalRule] using htext
  obtain rfl : (⟨86400, 0⟩ : Instant) = bound := Option.some.inj (hread.symm.trans hbound)
  exact ⟨song, hsong, hanswers.congr (iff_true_intro (by decide +kernel))⟩

/-- The song was created before the year 10000 as well, but the rule does not match it. -/
theorem far_future_missed : ∃ song ∈ (ofSong "A" "B" "C").songs, ∃ bound,
    ((ofSong "A" "B" "C").view 1 song).cell .createdAt = some (.text (format ⟨0, 0⟩)) ∧
      read? "+10000-01-01" = some bound ∧ Instant.compare ⟨0, 0⟩ bound = .lt ∧
      (ofSong "A" "B" "C").Answers 1 ⟨0, 0⟩ (literalRule .createdAt .isLessThan "+10000-01-01")
        song.id False := by
  obtain ⟨song, hsong, hcell⟩ := exists_created
  have hread : read? "+10000-01-01" = some ⟨253402300800, 0⟩ := by decide +kernel
  have hcompile := (asks_literalRule .createdAt .isLessThan "+10000-01-01").compile_instant rfl rfl
    rfl rfl hread
  obtain ⟨text, bound, htext, hbound, hanswers⟩ := answers_isLessThan
    (reachable_ofSong "A" "B" "C").invariant hsong hcompile rfl (Instant.proper_of_whole 0)
    (by decide) (by decide +kernel) hcell rfl ⟨0, 0⟩
  obtain rfl : "+10000-01-01" = text := by simpa [literalRule] using htext
  obtain rfl : (⟨253402300800, 0⟩ : Instant) = bound := Option.some.inj (hread.symm.trans hbound)
  exact ⟨song, hsong, _, hcell, hread, by decide +kernel,
    hanswers.congr (iff_false_intro (by decide +kernel))⟩

end Catalogue

end Setlist
