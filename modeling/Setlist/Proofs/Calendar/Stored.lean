import Setlist.Calendar.Stored
import Setlist.Proofs.Calendar.Years

/-! # Days of written times

The database reads the day of a written time back, unless the time is in a leap second or out
of the range that it counts. The times that it writes itself are all in that range.
-/

namespace Setlist

namespace Text.Reader

variable {α β : Type}

theorem bind_some {reader : Reader α} {next : α → Reader β} {text rest : List Char} {value : α}
    (h : reader text = some (value, rest)) : (reader >>= next) text = next value rest := by
  show (reader text).bind _ = _
  rw [h]
  rfl

theorem bind_none {reader : Reader α} {next : α → Reader β} {text : List Char}
    (h : reader text = none) : (reader >>= next) text = none := by
  show (reader text).bind _ = _
  rw [h]
  rfl

theorem literal_cons (c : Char) (rest : List Char) : literal c (c :: rest) = some ((), rest) := by
  have hsatisfy : satisfy (· == c) (c :: rest) = some (c, rest) := if_pos (beq_self_eq_true c)
  exact bind_some hsatisfy

theorem literal_ne {c d : Char} (h : d ≠ c) (rest : List Char) : literal c (d :: rest) = none := by
  have hsatisfy : satisfy (· == c) (d :: rest) = none := if_neg (by simpa using h)
  exact bind_none hsatisfy

theorem exactly_digits {width : Nat} {digits : List Char} (h : ∀ c ∈ digits, c.isDigit)
    (hlength : digits.length = width) (rest : List Char) :
    exactly width (digits ++ rest) = some (digitsValue digits, rest) := by
  unfold exactly
  rw [List.take_left' hlength, List.drop_left' hlength]
  exact if_pos ⟨hlength, List.all_eq_true.mpr h⟩

theorem exactly_ne {width : Nat} {c : Char} (h : ¬c.isDigit) (rest : List Char) :
    exactly (width + 1) (c :: rest) = none :=
  if_neg fun hall => h (List.all_eq_true.mp hall.2 c List.mem_cons_self)

theorem exactly_padded (width : Nat) {value : Nat} (hpos : 0 < width) (h : value < 10 ^ width)
    (rest : List Char) :
    exactly width (Timestamp.padded width value ++ rest) = some (value, rest) := by
  rw [exactly_digits Timestamp.isDigit_padded (Timestamp.length_padded hpos h),
    Timestamp.digitsValue_padded]

end Text.Reader

namespace Timestamp

open Text.Reader

theorem plainYear_digits {digits : List Char} (h : ∀ c ∈ digits, c.isDigit)
    (hlength : digits.length = 4) (rest : List Char) :
    plainYear (digits ++ rest) = some ((digitsValue digits : Int), rest) := by
  cases digits with
  | nil => cases hlength
  | cons c digits =>
    have hc : c ≠ '-' := by
      rintro rfl
      exact absurd (h '-' List.mem_cons_self) (by decide)
    have hread := exactly_digits h hlength rest
    rw [List.cons_append] at hread ⊢
    unfold plainYear
    split
    case h_1 heq => exact absurd (List.cons.inj heq).1 hc
    case h_2 => rw [hread, Option.map_some]

theorem plainYear_yearChars {year : Int} (h : year.natAbs ≤ 9999) (rest : List Char) :
    plainYear (yearChars year ++ rest) = some (year, rest) := by
  unfold yearChars
  split
  case isTrue hplain =>
    have hlength : (padded 4 year.toNat).length = 4 := length_padded (by decide) (by omega)
    rw [plainYear_digits isDigit_padded hlength, digitsValue_padded, Int.toNat_of_nonneg hplain.1]
  case isFalse hsigned =>
    have hnegative : year < 0 := by omega
    have hread := exactly_padded 4 (by decide) (Nat.lt_succ_of_le h) rest
    have hvalue : -(year.natAbs : Int) = year := by omega
    rw [if_pos hnegative, List.cons_append, plainYear, hread]
    exact congrArg (fun value => some (value, rest)) hvalue

theorem exists_fifth {value : Nat} (h : 9999 < value) : ∃ four digit more,
    padded 4 value = four ++ digit :: more ∧ four.length = 4 ∧ (∀ c ∈ four, c.isDigit) ∧
      digit.isDigit := by
  have hlength : 4 < (padded 4 value).length := by
    have hdigits := (Nat.length_toDigits_le_iff (b := 10) (k := 4) (n := value) (by decide)
      (by decide)).not
    unfold padded
    rw [List.length_append, List.length_replicate]
    omega
  refine ⟨(padded 4 value).take 4, (padded 4 value)[4], (padded 4 value).drop 5, ?_, ?_, ?_, ?_⟩
  · rw [List.getElem_cons_drop, List.take_append_drop]
  · exact List.length_take_of_le hlength.le
  · exact fun c hc => isDigit_padded c (List.mem_of_mem_take hc)
  · exact isDigit_padded _ (List.getElem_mem hlength)

/-- No other year is: after its sign come more than four digits, or the sign is a plus. -/
theorem plainDate_wide {d : Date} (h : 9999 < d.year.natAbs) (rest : List Char) :
    plainDate (dateChars d ++ rest) = none := by
  have hsigned : ¬(0 ≤ d.year ∧ d.year ≤ 9999) := by omega
  unfold dateChars yearChars
  rw [if_neg hsigned, List.cons_append, List.cons_append]
  split
  case isTrue =>
    obtain ⟨four, digit, more, hyear, hlength, hfour, hdigit⟩ := exists_fifth h
    have hhyphen : digit ≠ '-' := by
      rintro rfl
      exact absurd hdigit (by decide)
    have hread (tail : List Char) : plainYear ('-' :: (four ++ digit :: tail)) =
        some (-(digitsValue four : Int), digit :: tail) := by
      rw [plainYear, exactly_digits hfour hlength]
      rfl
    rw [hyear, List.append_assoc, List.append_assoc, List.cons_append]
    exact (bind_some (hread _)).trans (bind_none (literal_ne hhyphen _))
  case isFalse =>
    refine bind_none ?_
    show (exactly 4 ('+' :: _)).map _ = none
    rw [exactly_ne (by decide), Option.map_none]

/-- The time of day is one that the database knows, except in a leap second. -/
theorem clock_valid {i : Instant} (hi : i.Proper) :
    (decide (i.secondOfDay / 3600 ≤ 23) && decide (i.secondOfDay / 60 % 60 ≤ 59) &&
      decide (i.secondOfDay % 60 + i.leaps ≤ 59)) = decide (i.leaps = 0) := by
  have hlimit := i.secondOfDay_lt
  have hsecond := hi.second_of_leaps
  have hle := hi.leaps_le
  rw [Bool.eq_iff_iff]
  simp only [Bool.and_eq_true, decide_eq_true_eq]
  omega

theorem seconds_ofClock (d : Date) {i : Instant} (hleaps : i.leaps = 0) :
    (Instant.ofClock d (i.secondOfDay / 3600) (i.secondOfDay / 60 % 60)
      (i.secondOfDay % 60 + i.leaps) 0).seconds =
      (Instant.atMidnight d).seconds + i.secondOfDay := by
  unfold Instant.ofClock
  rw [if_neg (by omega)]
  dsimp only
  omega

structure InReach (d : Date) : Prop where
  month_pos : 1 ≤ d.month
  month_le : d.month ≤ 12
  day_pos : 1 ≤ d.day
  day_le : d.day ≤ 31

theorem inReach_of_exists {d : Date} (h : d.Exists) : InReach d :=
  ⟨h.month_pos, h.month_le, h.day_pos, h.day_le_31⟩

theorem InReach.ensured {d : Date} (h : InReach d) :
    (decide (1 ≤ d.month) && decide (d.month ≤ 12) && decide (1 ≤ d.day) &&
      decide (d.day ≤ 31)) = true := by
  simp [h.month_pos, h.month_le, h.day_pos, h.day_le]

theorem plainDate_chars {d : Date} (hyear : d.year.natAbs ≤ 9999) (hd : InReach d) {i : Instant}
    (hi : i.Proper) : plainDate (dateChars d ++ ' ' :: timeChars i) =
      if i.leaps = 0 ∧ firstCounted ≤ (Instant.atMidnight d).seconds + i.secondOfDay then
        some (d, []) else none := by
  have hlimit := i.secondOfDay_lt
  have hle := hi.leaps_le
  have hmonth := hd.month_le
  have hday := hd.day_le
  have hlast : exactly 2 (padded 2 (i.secondOfDay % 60 + i.leaps)) =
      some (i.secondOfDay % 60 + i.leaps, []) := by
    simpa using exactly_padded 2 (by decide) (by omega) []
  unfold dateChars timeChars
  simp only [List.append_assoc, List.cons_append]
  refine (bind_some (plainYear_yearChars hyear _)).trans ?_
  refine (bind_some (literal_cons _ _)).trans ?_
  refine (bind_some (exactly_padded 2 (by decide) (by omega) _)).trans ?_
  refine (bind_some (literal_cons _ _)).trans ?_
  refine (bind_some (exactly_padded 2 (by decide) (by omega) _)).trans ?_
  refine (bind_some (literal_cons _ _)).trans ?_
  refine (bind_some (exactly_padded 2 (by decide) (by omega) _)).trans ?_
  refine (bind_some (literal_cons _ _)).trans ?_
  refine (bind_some (exactly_padded 2 (by decide) (by omega) _)).trans ?_
  refine (bind_some (literal_cons _ _)).trans ?_
  refine (bind_some hlast).trans ?_
  rw [hd.ensured]
  refine (bind_some rfl).trans ?_
  rw [clock_valid hi]
  by_cases hleaps : i.leaps = 0
  · rw [seconds_ofClock d hleaps, decide_eq_true hleaps]
    refine (bind_some rfl).trans ?_
    by_cases hcounted : firstCounted ≤ (Instant.atMidnight d).seconds + i.secondOfDay
    · rw [if_pos ⟨hleaps, hcounted⟩, decide_eq_true hcounted]
      rfl
    · rw [if_neg fun h => hcounted h.2, decide_eq_false hcounted]
      rfl
  · rw [decide_eq_false hleaps, if_neg fun h => hleaps h.1]
    exact bind_none rfl

theorem day?_chars {d : Date} (hd : InReach d) {i : Instant} (hi : i.Proper) : day? (String.ofList (dateChars d ++ ' ' :: timeChars i)) =
      if d.year.natAbs ≤ 9999 ∧ i.leaps = 0 ∧
        firstCounted ≤ (Instant.atMidnight d).seconds + i.secondOfDay then
        some (String.ofList (dateChars (readDate d))) else none := by
  unfold day? Text.Reader.whole
  rw [String.toList_ofList]
  by_cases hyear : d.year.natAbs ≤ 9999
  · rw [plainDate_chars hyear hd hi]
    by_cases hcounted : i.leaps = 0 ∧ firstCounted ≤ (Instant.atMidnight d).seconds + i.secondOfDay
    · rw [if_pos hcounted, if_pos ⟨hyear, hcounted⟩]
      rfl
    · rw [if_neg hcounted, if_neg fun h => hcounted h.2]
      rfl
  · rw [plainDate_wide (by omega), if_neg fun h => hyear h.1]
    rfl

/-- The database knows the day of the instant. -/
def IsCounted (i : Instant) : Prop :=
  firstCounted ≤ i.seconds ∧ i.date.year ≤ 9999 ∧ i.leaps = 0

instance (i : Instant) : Decidable (IsCounted i) := inferInstanceAs (Decidable (_ ∧ _))

theorem seconds_eq (i : Instant) :
    (Instant.atMidnight i.date).seconds + i.secondOfDay = i.seconds := by
  unfold Instant.atMidnight Instant.date Instant.secondOfDay
  rw [Date.toDays_ofDays]
  unfold Instant.secondsPerDay
  dsimp only
  omega

theorem year_firstCounted : (Instant.mk firstCounted 0).date.year = -4713 := by decide +kernel

theorem year_of_counted {i : Instant} (h : firstCounted ≤ i.seconds) : -4713 ≤ i.date.year := by
  rw [← year_firstCounted]
  exact Instant.year_date_le h

theorem year_of_lastCounted {i : Instant} (h : i.seconds ≤ lastCounted) : i.date.year ≤ 9999 := by
  have hlast : (Instant.mk lastCounted 0).date.year = 9999 := by decide +kernel
  rw [← hlast]
  exact Instant.year_date_le h

/-- A year of four digits is counted, except for its leap seconds. -/
theorem isCounted_iff_of_plain {i : Instant} (h : i.date.HasPlainYear) :
    IsCounted i ↔ i.leaps = 0 := by
  refine ⟨fun hcounted => hcounted.2.2, fun hleaps => ⟨?_, h.2, hleaps⟩⟩
  refine Int.not_lt.mp fun hless => ?_
  have hyear := Instant.year_date_le (b := ⟨firstCounted, 0⟩) (Int.le_of_lt hless)
  rw [year_firstCounted] at hyear
  unfold Date.HasPlainYear at h
  omega

theorem day?_format {i : Instant} (hi : i.Proper) :
    day? (format i) =
      if IsCounted i then some (String.ofList (dateChars (readDate i.date))) else none := by
  rw [format, chars, day?_chars (inReach_of_exists i.exists_date) hi, seconds_eq]
  have hiff : i.date.year.natAbs ≤ 9999 ∧ i.leaps = 0 ∧ firstCounted ≤ i.seconds ↔
      IsCounted i := by
    constructor
    · rintro ⟨hyear, hleaps, hfirst⟩
      exact ⟨hfirst, by omega, hleaps⟩
    · rintro ⟨hfirst, hyear, hleaps⟩
      have hlow := year_of_counted hfirst
      exact ⟨by omega, hleaps, hfirst⟩
  simp only [hiff]

theorem toDays_countedDate (d : Date) : (countedDate d).toDays = d.toDays := by
  unfold countedDate
  split
  case isTrue h =>
    obtain ⟨-, hyear, hmonth, hday⟩ := h
    have hleap : Date.isLeap d.year = false := by
      unfold Date.isLeap
      simp
      omega
    simp [Date.toDays, Date.monthLengths, hleap, hmonth, hday]
    omega
  case isFalse => rfl

theorem year_countedDate (d : Date) : (countedDate d).year = d.year := by
  unfold countedDate
  split <;> rfl

theorem InReach.countedDate {d : Date} (h : InReach d) : InReach (countedDate d) := by
  unfold Timestamp.countedDate
  split
  case isTrue => constructor <;> simp
  case isFalse => exact h

theorem miscount_cases (d : Date) : miscount d = 0 ∨ miscount d = 1 ∧ d.year ≤ -99 := by
  unfold miscount
  dsimp only
  split <;> split <;> omega

theorem readDate_of_nonneg {d : Date} (h : d.Exists) (hyear : 0 ≤ d.year) : readDate d = d := by
  unfold readDate
  split
  case isTrue => rfl
  case isFalse hlate =>
    have hcounted : miscount d = 0 := (miscount_cases d).resolve_right (by omega)
    rw [hcounted, Int.add_zero, Date.ofDays_toDays h, countedDate, if_neg (by omega)]

theorem year_readDate_neg {d : Date} (h : d.Exists) (hyear : d.year < 0) :
    (readDate d).year < 0 := by
  unfold readDate
  split
  case isTrue => exact hyear
  case isFalse =>
    rw [year_countedDate]
    rcases miscount_cases d with hcounted | ⟨hcounted, hcentury⟩
    · rwa [hcounted, Int.add_zero, Date.ofDays_toDays h]
    · have hbound := h.toDays_bounds.2
      have hless := Date.daysBeforeYear_lt (a := d.year) (b := -1) (by omega)
      have hyears : Date.daysBeforeYear (-1) = -365 := rfl
      have hlast : (Date.ofDays (-1)).year = -1 := rfl
      have hle := Date.year_ofDays_le (m := d.toDays + 1) (n := -1) (by omega)
      rw [hcounted]
      omega

/-- A date in a year of four digits is told by what the database reads. -/
theorem dateChars_readDate_eq_iff {a b : Date} (ha : a.Exists) (hb : b.Exists)
    (hya : a.HasPlainYear) (hnear : b.year ≤ 9999) :
    dateChars (readDate a) = dateChars (readDate b) ↔ a = b := by
  rw [readDate_of_nonneg ha hya.1]
  by_cases hyb : 0 ≤ b.year
  · rw [readDate_of_nonneg hb hyb, dateChars_eq_iff ha hb hya]
  · have hneg := year_readDate_neg hb (Int.not_le.mp hyb)
    have hsigned := dateChars_ne_of_signed hya fun hplain => absurd hplain.1 (Int.not_le.mpr hneg)
    refine ⟨fun h => absurd h hsigned, ?_⟩
    rintro rfl
    exact absurd hya.1 hyb

def IsStamp (text : String) : Prop := ∃ now, stamp? now = some text

theorem IsStamp.day? {text : String} (h : IsStamp text) : (day? text).isSome := by
  obtain ⟨now, h⟩ := h
  unfold stamp? at h
  dsimp only at h
  split at h
  case isTrue hrange =>
    obtain rfl := Option.some.inj h
    obtain ⟨hfirst, hlast⟩ := hrange
    have hproper := Instant.proper_of_whole (millis now / 1000)
    have hcounted : firstCounted ≤ millis now / 1000 := by omega
    have hlow := year_of_counted (i := ⟨millis now / 1000, 0⟩) hcounted
    have hhigh := year_of_lastCounted (i := ⟨millis now / 1000, 0⟩) hlast
    have hreach := (inReach_of_exists (Instant.exists_date ⟨millis now / 1000, 0⟩)).countedDate
    have hstart := seconds_eq ⟨millis now / 1000, 0⟩
    rw [Instant.atMidnight, ← toDays_countedDate] at hstart
    rw [day?_chars hreach hproper, if_pos]
    · rfl
    · rw [year_countedDate]
      refine ⟨by omega, Nat.zero_div _, ?_⟩
      rw [Instant.atMidnight, hstart]
      exact hcounted
  case isFalse => cases h

end Timestamp

end Setlist
