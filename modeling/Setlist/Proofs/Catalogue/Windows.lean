import Setlist.Proofs.Calendar.Windows
import Setlist.Proofs.Catalogue.Complements
import Setlist.Proofs.Catalogue.Dates
import Setlist.Proofs.Rule.Reading

/-! # Rules that look back

A rule that looks back matches the songs whose time lies in the window that ends now, and its
opposite all others, those without a time among them. So a longer window never loses a song.
-/

namespace Setlist

open Timestamp

namespace Predicate

/-- To look back over some milliseconds, with either operator that does. -/
def lookBack (field : Field) (operator : Operator) (millis : Int) : Predicate :=
  ⟨field, operator, [.window millis], .ofOption field.relation⟩

section Stored

variable {field : Field} {stored now : Instant} {millis : Int} {read : Field → Cell}
  (hread : read field = some (.text (format stored))) (hstored : stored.Proper)
  (hwhole : stored.truncated = stored) (hyear : stored.date.HasPlainYear)
  (hleaps : now.leaps = 0) (hplain : now.date.HasPlainYear) (hmillis : 0 ≤ millis)

include hread hstored hwhole hyear hleaps hplain hmillis

theorem truth_inLast : ((lookBack field .inLast millis).condition now).truth read = some true ↔
    stored.InWindow now millis := by
  simp only [lookBack, condition, comparison, Operator.arity, Operator.isNegated, windowBounds,
    List.length_singleton, ne_eq, not_true_eq_false, if_false, Bool.false_eq_true,
    Condition.truth, hread, Condition.compares_format, Truth.and_eq_true, Option.some.injEq,
    bne_iff_ne]
  rw [compare_windowStart_eq_lt hstored hwhole hyear hleaps hplain hmillis,
    compare_now_eq_gt hstored hwhole hyear hleaps hplain, Instant.InWindow]

theorem truth_notInLast :
    ((lookBack field .notInLast millis).condition now).truth read = some true ↔
      ¬stored.InWindow now millis := by
  simp only [lookBack, condition, comparison, Operator.arity, Operator.isNegated, windowBounds,
    List.length_singleton, ne_eq, not_true_eq_false, if_false, if_true, Condition.truth, hread,
    Condition.compares_format, Option.isNone_some, Truth.false_or, Truth.or_eq_true,
    Option.some.injEq, beq_iff_eq]
  rw [compare_windowStart_eq_lt hstored hwhole hyear hleaps hplain hmillis,
    compare_now_eq_gt hstored hwhole hyear hleaps hplain, Instant.not_inWindow]

end Stored

end Predicate

theorem RuleRecord.lookBack_of_compile {record : RuleRecord} {p : Predicate}
    (h : record.compile = .ok p) (hoperand : p.operator.operand = .unitCount) :
    ∃ millis, 0 ≤ millis ∧ p = .lookBack p.field p.operator millis := by
  have harity : p.operator.arity = 1 := by
    cases hoperator : p.operator <;> simp_all [Operator.operand, Operator.arity]
  obtain ⟨raw, value, -, hvalue, hread⟩ := value_of_compile h harity
  have hjoins := (compile_eq_ok.mp h).2.2
  cases Rule.compileValue_eq_ok.mp hread with
  | value hfield => rw [hoperand] at hfield; cases hfield
  | pattern hkind =>
    rw [Operator.operand_of_matchKind hkind] at hoperand
    cases hoperand
  | window _ _ _ hmillis =>
    obtain ⟨field, operator, values, joins⟩ := p
    simp only at hvalue hjoins
    exact ⟨_, (TimeUnit.duration_bounds hmillis).1, by rw [hvalue, hjoins]; rfl⟩

namespace Catalogue

open Predicate (lookBack)

variable {c : Catalogue} {user : Int} {song : SongRow} {field : Field}
  {stored? : Option Instant} {now : Instant}

theorem decides_lookBack (hc : c.Invariant) (hsong : song ∈ c.songs) {operator : Operator}
    (hkind : operator.matchKind = none) (millis : Int) :
    c.Decides user now (lookBack field operator millis) song.id
      (((lookBack field operator millis).condition now).truth (c.view user song).cell =
        some true) :=
  decides_of_covers hc hsong (Joins.covers_ofOption field)
    (Predicate.patternsFit_of_matchKind hkind) now

section Stored

variable (hc : c.Invariant) (hsong : song ∈ c.songs)
  (hcell : (c.view user song).cell field = stored?.map fun time => .text (format time))
  (hstored : ∀ time ∈ stored?, time.Proper ∧ time.truncated = time ∧ time.date.HasPlainYear)
  (hleaps : now.leaps = 0) (hplain : now.date.HasPlainYear)

include hc hsong hcell hstored hleaps hplain

theorem decides_inLast {millis : Int} (hmillis : 0 ≤ millis) :
    c.Decides user now (lookBack field .inLast millis) song.id
      (∃ time ∈ stored?, time.InWindow now millis) := by
  refine (decides_lookBack hc hsong rfl millis).congr ?_
  cases stored? with
  | none =>
    have habsent := Predicate.truth_absent (p := lookBack field .inLast millis) rfl rfl hcell now
    simp [habsent.1]
  | some time =>
    obtain ⟨hproper, hwhole, hyear⟩ := hstored time rfl
    rw [Predicate.truth_inLast hcell hproper hwhole hyear hleaps hplain hmillis]
    simp

theorem decides_notInLast {millis : Int} (hmillis : 0 ≤ millis) :
    c.Decides user now (lookBack field .notInLast millis) song.id
      (∀ time ∈ stored?, ¬time.InWindow now millis) := by
  refine (decides_lookBack hc hsong rfl millis).congr ?_
  cases stored? with
  | none =>
    have habsent := Predicate.truth_absent (p := lookBack field .inLast millis) rfl rfl hcell now
    simpa [lookBack, Predicate.withOperator] using habsent.2
  | some time =>
    obtain ⟨hproper, hwhole, hyear⟩ := hstored time rfl
    rw [Predicate.truth_notInLast hcell hproper hwhole hyear hleaps hplain hmillis]
    simp

/-- A longer window keeps the songs of a shorter one, and has fewer outside. -/
theorem matched_lookBack_mono {millis longer : Int} (hmillis : 0 ≤ millis)
    (hlonger : millis ≤ longer) :
    (song.id ∈ c.matched (.ofGroups user [[lookBack field .inLast millis]]) now →
      song.id ∈ c.matched (.ofGroups user [[lookBack field .inLast longer]]) now) ∧
    (song.id ∈ c.matched (.ofGroups user [[lookBack field .notInLast longer]]) now →
      song.id ∈ c.matched (.ofGroups user [[lookBack field .notInLast millis]]) now) := by
  have hfar := hmillis.trans hlonger
  constructor
  · intro h
    obtain ⟨time, htime, hwithin⟩ :=
      (decides_inLast hc hsong hcell hstored hleaps hplain hmillis).2.mp h
    exact (decides_inLast hc hsong hcell hstored hleaps hplain hfar).2.mpr
      ⟨time, htime, hwithin.mono hlonger⟩
  · intro h
    have houtside := (decides_notInLast hc hsong hcell hstored hleaps hplain hfar).2.mp h
    exact (decides_notInLast hc hsong hcell hstored hleaps hplain hmillis).2.mpr
      fun time htime hwithin => houtside time htime (hwithin.mono hlonger)

/-- Rules that look back are answered by the window that they open, however long it is, and
longer windows hold more. -/
theorem look_back_rules :
    (∀ millis, 0 ≤ millis →
      ((∃ start, now.before? millis = some start ∧ start.truncated = now.opening millis) ∨
        now.before? millis = none ∧
          (now.opening millis).seconds < Instant.earliest.seconds) ∧
      c.Decides user now (lookBack field .inLast millis) song.id
        (∃ time ∈ stored?, time.compare (now.opening millis) ≠ .lt ∧
          time.compare now.truncated ≠ .gt) ∧
      c.Decides user now (lookBack field .notInLast millis) song.id
        (stored? = none ∨ ∃ time ∈ stored?, time.compare (now.opening millis) = .lt ∨
          time.compare now.truncated = .gt)) ∧
    (∀ millis longer, 0 ≤ millis → millis ≤ longer →
      (song.id ∈ c.matched (.ofGroups user [[lookBack field .inLast millis]]) now →
        song.id ∈ c.matched (.ofGroups user [[lookBack field .inLast longer]]) now) ∧
      (song.id ∈ c.matched (.ofGroups user [[lookBack field .notInLast longer]]) now →
        song.id ∈ c.matched (.ofGroups user [[lookBack field .notInLast millis]]) now)) ∧
    (∀ (record : RuleRecord) (p : Predicate), record.compile = .ok p → p.field = field →
      p.operator.operand = .unitCount → ∃ millis, 0 ≤ millis ∧
        p = lookBack field p.operator millis ∧
        GroupRecord.compileStrict user [⟨none, [record]⟩] =
          .ok (.ofGroups user [[lookBack field p.operator millis]])) := by
  refine ⟨fun millis hmillis => ⟨Instant.windowStart_eq hleaps hplain hmillis,
      decides_inLast hc hsong hcell hstored hleaps hplain hmillis,
      (decides_notInLast hc hsong hcell hstored hleaps hplain hmillis).congr ?_⟩,
    fun millis longer => matched_lookBack_mono hc hsong hcell hstored hleaps hplain, ?_⟩
  · cases stored? with
    | none => simp
    | some time => simp [Instant.not_inWindow]
  · rintro record p h rfl hoperand
    obtain ⟨millis, hmillis, hp⟩ := RuleRecord.lookBack_of_compile h hoperand
    exact ⟨millis, hmillis, hp, hp ▸ compileStrict_single user h⟩

end Stored

/-- The song created in the first second of 1970 is found by a rule that looks back from there
for longer than the calendar reaches. -/
theorem look_back_rules_of_1970 : ∃ song ∈ (ofSong "A" "B" "C").songs,
    (ofSong "A" "B" "C").Decides 1 ⟨0, 0⟩ (lookBack .createdAt .inLast TimeUnit.longest) song.id
      True ∧
    (ofSong "A" "B" "C").Decides 1 ⟨0, 0⟩ (lookBack .createdAt .notInLast TimeUnit.longest)
      song.id False := by
  obtain ⟨song, hsong, hcell⟩ := exists_created
  have hwindow : (⟨0, 0⟩ : Instant).InWindow ⟨0, 0⟩ TimeUnit.longest := by decide +kernel
  have hstored : ∀ time ∈ some (⟨0, 0⟩ : Instant),
      time.Proper ∧ time.truncated = time ∧ time.date.HasPlainYear := by
    rintro time ⟨⟩
    exact ⟨Instant.proper_of_whole 0, by decide, by decide +kernel⟩
  obtain ⟨-, hinside, houtside⟩ := (look_back_rules (reachable_ofSong "A" "B" "C").invariant hsong
    hcell hstored (show (⟨0, 0⟩ : Instant).leaps = 0 by decide) (by decide +kernel)).1
    TimeUnit.longest (by decide)
  refine ⟨song, hsong, hinside.congr (iff_true_intro ⟨_, rfl, hwindow⟩),
    houtside.congr (iff_false_intro ?_)⟩
  rintro (⟨⟨⟩⟩ | ⟨time, ⟨⟩, hless | hgt⟩)
  · exact hwindow.1 hless
  · exact hwindow.2 hgt

end Catalogue

end Setlist
