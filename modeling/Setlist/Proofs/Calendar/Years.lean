import Setlist.Proofs.Calendar.Reading

/-! # The years of times that are read

A date is valid when it exists and lies in the years that the calendar covers. Every time that
is read lies in them: an offset leads from a year of four digits at most into the next one.
-/

namespace Setlist

namespace Date

theorem ofDays_toDays {d : Date} (h : d.Exists) : ofDays d.toDays = d := by
  refine eq_of_compare ?_
  rw [← compare_toDays (exists_ofDays _).1 h, toDays_ofDays]
  exact Std.compare_self

def InCalendar (d : Date) : Prop := minYear ≤ d.year ∧ d.year ≤ maxYear

theorem isValid_iff {d : Date} : d.isValid = true ↔ d.InCalendar ∧ d.Exists := by
  simp only [isValid, Bool.and_eq_true, decide_eq_true_eq]
  constructor
  · rintro ⟨⟨⟨⟨hmin, hmax⟩, hmonth⟩, hday⟩, hlength⟩
    refine ⟨⟨hmin, hmax⟩, hmonth, ?_, hday, hlength⟩
    -- a month past the twelfth has no days
    refine Nat.le_of_not_lt fun hpast => ?_
    have hnone : (monthLengths d.year)[d.month - 1]? = none :=
      List.getElem?_eq_none (by rw [length_monthLengths]; omega)
    rw [hnone, Option.getD_none] at hlength
    omega
  · rintro ⟨⟨hmin, hmax⟩, hmonth, -, hday, hlength⟩
    exact ⟨⟨⟨⟨hmin, hmax⟩, hmonth⟩, hday⟩, hlength⟩

end Date

namespace Instant

theorem date_of_seconds {d : Date} (hd : d.Exists) {i : Instant} (second : Nat)
    (hsecond : second < 86400) (h : i.seconds = (atMidnight d).seconds + second) : i.date = d := by
  have hdays : i.seconds / secondsPerDay + epochDay = d.toDays := by
    rw [h]
    unfold atMidnight secondsPerDay
    dsimp only
    omega
  rw [date, hdays, Date.ofDays_toDays hd]

theorem date_atMidnight {d : Date} (hd : d.Exists) : (atMidnight d).date = d :=
  date_of_seconds hd 0 (by decide) (Int.add_zero _).symm

theorem date_ofClock {d : Date} (hd : d.Exists) {hour minute second : Nat} (hhour : hour ≤ 23)
    (hminute : minute ≤ 59) (hsecond : second ≤ 60) (nanos : Nat) :
    (ofClock d hour minute second nanos).date = d := by
  unfold ofClock
  dsimp only
  split
  case isTrue =>
    refine date_of_seconds hd (hour * 3600 + minute * 60 + 59) (by omega) ?_
    push_cast
    omega
  case isFalse =>
    refine date_of_seconds hd (hour * 3600 + minute * 60 + second) (by omega) ?_
    push_cast
    omega

theorem year_lt {i : Instant} {seconds : Int} {year : Int}
    (hyear : (Instant.mk seconds 0).date.year = year) (h : year < i.date.year) :
    seconds < i.seconds := by
  refine Int.not_le.mp fun hle => ?_
  have hyears := year_date_le (a := i) (b := ⟨seconds, 0⟩) hle
  omega

theorem lt_year {i : Instant} {seconds : Int} {year : Int}
    (hyear : (Instant.mk seconds 0).date.year = year) (h : i.date.year < year) :
    i.seconds < seconds := by
  refine Int.not_le.mp fun hle => ?_
  have hyears := year_date_le (a := ⟨seconds, 0⟩) (b := i) hle
  omega

/-- Less than a day leads from a year of four digits at most into the year before or after. -/
theorem inCalendar_shifted {i : Instant} (hyear : i.date.HasPlainYear) {seconds : Int}
    (hless : -86400 < seconds ∧ seconds < 86400) : (i.shifted seconds).date.InCalendar := by
  have hbefore : (Instant.mk (-62167219201) 0).date.year = -1 := by decide +kernel
  have hafter : (Instant.mk 253402300800 0).date.year = 10000 := by decide +kernel
  have hfirst : (Instant.mk (-62167219201 - 86400) 0).date.year = -1 := by decide +kernel
  have hlast : (Instant.mk (253402300800 + 86400) 0).date.year = 10000 := by decide +kernel
  have hlow := year_lt hbefore (Int.lt_of_lt_of_le (by decide) hyear.1)
  have hhigh := lt_year hafter (Int.lt_of_le_of_lt hyear.2 (by decide))
  have hmin := year_date_le (a := ⟨-62167219201 - 86400, 0⟩) (b := i.shifted seconds)
    (by unfold shifted; dsimp only; omega)
  have hmax := year_date_le (a := i.shifted seconds) (b := ⟨253402300800 + 86400, 0⟩)
    (by unfold shifted; dsimp only; omega)
  unfold Date.InCalendar Date.minYear Date.maxYear
  omega

end Instant

namespace Timestamp

open Text.Reader

theorem yields_ensure (test : Bool) : (ensure test).Yields fun _ => test = true := by
  intro text value rest hread
  unfold ensure at hread
  split at hread
  case isTrue h => exact h
  case isFalse => cases hread

theorem yields_exactly (width : Nat) : (exactly width).Yields (· < 10 ^ width) := by
  intro text value rest hread
  unfold exactly at hread
  dsimp only at hread
  split at hread
  case isTrue h =>
    obtain ⟨rfl, -⟩ := Prod.mk.inj (Option.some.inj hread)
    have hlt := digitsValue_lt (List.all_eq_true.mp h.2)
    rwa [h.1] at hlt
  case isFalse => cases hread

theorem yields_validDate (year : Int) (month day : Nat) :
    (validDate year month day).Yields fun d => d.isValid = true ∧ d.year = year :=
  (yields_ensure _).bind fun _ h => yields_pure ⟨h, rfl⟩

theorem yields_lenientDate : lenientDate.Yields fun d => d.InCalendar ∧ d.Exists :=
  yields_bind fun _ => yields_bind fun _ => yields_bind fun _ => yields_bind fun _ =>
    yields_bind fun _ => fun _ _ _ hread =>
      Date.isValid_iff.mp (yields_validDate _ _ _ hread).1

theorem yields_validTime_date {d : Date} (hd : d.Exists) (hour minute second nanos : Nat) :
    (validTime d hour minute second nanos).Yields fun i => i.date = d := by
  refine (yields_ensure _).bind fun _ h => yields_pure ?_
  simp only [Bool.and_eq_true, decide_eq_true_eq] at h
  obtain ⟨⟨hhour, hminute⟩, hsecond⟩ := h
  exact Instant.date_ofClock hd hhour hminute hsecond nanos

theorem yields_offset_day : offset.Yields fun ahead => -86400 < ahead ∧ ahead < 86400 := by
  refine yields_bind fun c => ?_
  dsimp only
  split
  case isTrue => exact yields_pure (by decide)
  case isFalse =>
    refine yields_bind fun hour => yields_bind fun _ => yields_bind fun minute =>
      (yields_ensure _).bind fun _ h => yields_pure ?_
    simp only [Bool.and_eq_true, decide_eq_true_eq] at h
    split <;> omega

theorem yields_internetLayout_date : internetLayout.Yields (·.date.InCalendar) := by
  refine (yields_exactly 4).bind fun year hyear => ?_
  -- The rest of the date, its separator, the clock and the fraction come before the offset.
  refine yields_bind fun _ => yields_bind fun _ => yields_bind fun _ => yields_bind fun _ =>
    yields_bind fun _ => yields_bind fun _ => yields_bind fun _ => yields_bind fun _ =>
    yields_bind fun _ => yields_bind fun _ => yields_bind fun _ => ?_
  refine yields_offset_day.bind fun ahead hahead => ?_
  refine (yields_validDate _ _ _).bind fun d ⟨hvalid, hsame⟩ => ?_
  refine (yields_validTime_date (Date.isValid_iff.mp hvalid).2 _ _ _ _).bind fun i hi => ?_
  refine yields_pure (Instant.inCalendar_shifted ?_ (by omega))
  rw [hi, Date.HasPlainYear, hsame]
  omega

theorem yields_storageLayout_date : storageLayout.Yields (·.date.InCalendar) := by
  refine yields_lenientDate.bind fun d hd => ?_
  refine yields_bind fun _ => yields_bind fun _ => yields_bind fun _ => yields_bind fun _ =>
    yields_bind fun _ => fun _ i _ hread => ?_
  rw [yields_validTime_date hd.2 _ _ _ _ hread]
  exact hd.1

theorem yields_dateLayout_date : dateLayout.Yields (·.date.InCalendar) := by
  refine yields_lenientDate.bind fun d hd => yields_pure ?_
  rw [Instant.date_atMidnight hd.2]
  exact hd.1

theorem inCalendar_of_read? {text : String} {i : Instant} (h : read? text = some i) :
    i.date.InCalendar :=
  of_read? yields_internetLayout_date yields_storageLayout_date yields_dateLayout_date h

end Timestamp

end Setlist
