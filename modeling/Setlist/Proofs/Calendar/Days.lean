import Mathlib.Algebra.Ring.Nat
import Setlist.Calendar.Date

/-! # Dates and their numbers

Every number of days is that of one date, and dates are in the order of their numbers. A year
holds as many days as its months, and a day of a year falls in one month of it.
-/

namespace Setlist

namespace Date

theorem daysBeforeYear_succ (year : Int) :
    daysBeforeYear (year + 1) = daysBeforeYear year + ((monthLengths year).sum : Nat) := by
  have hleap : isLeap year = true ↔ year % 4 = 0 ∧ (year % 100 ≠ 0 ∨ year % 400 = 0) := by
    simp [isLeap]
  unfold monthLengths daysBeforeYear
  cases h : isLeap year <;> rw [h] at hleap <;> simp at hleap ⊢ <;> omega

theorem daysBeforeYear_lt {a b : Int} (h : a < b) :
    daysBeforeYear (a + 1) ≤ daysBeforeYear b := by
  unfold daysBeforeYear
  omega

theorem daysBeforeYear_yearOfDays (days : Int) :
    daysBeforeYear (yearOfDays days) ≤ days ∧ days < daysBeforeYear (yearOfDays days + 1) := by
  have hbelow : daysBeforeYear (days * 400 / 146097 - 1) ≤ days := by
    unfold daysBeforeYear
    omega
  have habove : days < daysBeforeYear (days * 400 / 146097 + 1 + 1) := by
    unfold daysBeforeYear
    omega
  unfold yearOfDays
  dsimp only
  split
  case isTrue h => exact ⟨hbelow, by rwa [Int.sub_add_cancel]⟩
  case isFalse h =>
    split
    case isTrue h' => exact ⟨h', habove⟩
    case isFalse h' => exact ⟨Int.not_lt.mp h, Int.not_le.mp h'⟩

theorem monthOfDay_spec {lengths : List Nat} {day : Nat} (h : day < lengths.sum) (first : Nat) :
    ∃ i, ∃ hi : i < lengths.length, ∃ rest, rest < lengths[i] ∧
      monthOfDay first lengths day = (first + i, rest + 1) ∧
      (lengths.take i).sum + rest = day := by
  induction lengths generalizing day first with
  | nil => simp at h
  | cons length lengths ih =>
    rw [monthOfDay]
    split
    case isTrue hday => exact ⟨0, Nat.zero_lt_succ _, day, hday, rfl, by simp⟩
    case isFalse hday =>
      rw [List.sum_cons] at h
      have hless : day - length < lengths.sum := by omega
      obtain ⟨i, hi, rest, hrest, hmonth, hsum⟩ := ih hless (first + 1)
      refine ⟨i + 1, Nat.succ_lt_succ hi, rest, hrest, ?_, ?_⟩
      · rw [hmonth]
        congr 1
        omega
      · rw [List.take_succ_cons, List.sum_cons]
        omega

/-- The month is one of the year's, and the day one of the month's. -/
structure Exists (d : Date) : Prop where
  month_pos : 1 ≤ d.month
  month_le : d.month ≤ 12
  day_pos : 1 ≤ d.day
  day_le : d.day ≤ ((monthLengths d.year)[d.month - 1]?).getD 0

theorem length_monthLengths (year : Int) : (monthLengths year).length = 12 := rfl

def daysBeforeMonth (year : Int) (month : Nat) : Nat := ((monthLengths year).take (month - 1)).sum

theorem toDays_eq (d : Date) :
    d.toDays = daysBeforeYear d.year + daysBeforeMonth d.year d.month + d.day - 1 := rfl

namespace Exists

variable {d : Date} (h : d.Exists)

include h

theorem month_lt : d.month - 1 < (monthLengths d.year).length := by
  have hpos := h.month_pos
  have hle := h.month_le
  rw [length_monthLengths]
  omega

theorem exists_length :
    ∃ length, (monthLengths d.year)[d.month - 1]? = some length ∧ d.day ≤ length := by
  have hday := h.day_le
  rw [List.getElem?_eq_getElem h.month_lt, Option.getD_some] at hday
  exact ⟨_, List.getElem?_eq_getElem h.month_lt, hday⟩

theorem day_le_31 : d.day ≤ 31 := by
  obtain ⟨length, hlength, hday⟩ := h.exists_length
  have hlengths : ∀ length ∈ monthLengths d.year, length ≤ 31 := by
    unfold monthLengths
    cases isLeap d.year <;> decide
  exact Nat.le_trans hday (hlengths length (List.mem_of_getElem? hlength))

theorem daysBeforeMonth_le {month : Nat} (hmonth : d.month < month) :
    daysBeforeMonth d.year d.month + d.day ≤ daysBeforeMonth d.year month := by
  obtain ⟨length, hlength, hday⟩ := h.exists_length
  have hpos := h.month_pos
  have hstep : (monthLengths d.year).take d.month =
      (monthLengths d.year).take (d.month - 1) ++ [length] := by
    rw [← Nat.sub_add_cancel hpos, List.take_add_one, Nat.add_sub_cancel, hlength]
    rfl
  obtain ⟨more, hmore⟩ : (monthLengths d.year).take d.month <+:
      (monthLengths d.year).take (month - 1) := List.take_prefix_take_left (by omega)
  rw [daysBeforeMonth, daysBeforeMonth, ← hmore, hstep, List.sum_append, List.sum_append,
    List.sum_singleton]
  omega

theorem toDays_bounds :
    daysBeforeYear d.year ≤ d.toDays ∧ d.toDays < daysBeforeYear (d.year + 1) := by
  have hyear : daysBeforeMonth d.year 13 = (monthLengths d.year).sum :=
    congrArg List.sum (List.take_of_length_le (Nat.le_refl 12))
  have hmonth : daysBeforeMonth d.year d.month + d.day ≤ daysBeforeMonth d.year 13 :=
    h.daysBeforeMonth_le (Nat.lt_succ_of_le h.month_le)
  have hpos := h.day_pos
  rw [toDays_eq, daysBeforeYear_succ]
  omega

end Exists

theorem exists_ofDays (days : Int) : (ofDays days).Exists ∧ (ofDays days).toDays = days := by
  obtain ⟨hlow, hhigh⟩ := daysBeforeYear_yearOfDays days
  rw [daysBeforeYear_succ] at hhigh
  have hday : (days - daysBeforeYear (yearOfDays days)).toNat <
      (monthLengths (yearOfDays days)).sum := by omega
  obtain ⟨i, hi, rest, hrest, hmonth, hsum⟩ := monthOfDay_spec hday 1
  have hdate : ofDays days = ⟨yearOfDays days, 1 + i, rest + 1⟩ := by
    simp only [ofDays, hmonth]
  have hplace : 1 + i - 1 = i := by omega
  rw [hdate]
  refine ⟨⟨?_, ?_, ?_, ?_⟩, ?_⟩
  · exact Nat.le_add_right 1 i
  · rw [length_monthLengths] at hi
    change 1 + i ≤ 12
    omega
  · exact Nat.le_add_left 1 rest
  · dsimp only
    rw [hplace, List.getElem?_eq_getElem hi]
    exact hrest
  · rw [toDays_eq]
    dsimp only
    rw [daysBeforeMonth, hplace]
    omega

theorem toDays_ofDays (days : Int) : (ofDays days).toDays = days := (exists_ofDays days).2

def compare (a b : Date) : Ordering :=
  (Ord.compare a.year b.year).then ((Ord.compare a.month b.month).then (Ord.compare a.day b.day))

theorem compare_swap (a b : Date) : (a.compare b).swap = b.compare a := by
  simp only [compare, Ordering.swap_then, Std.OrientedOrd.eq_swap (a := b.year),
    Std.OrientedOrd.eq_swap (a := b.month), Std.OrientedOrd.eq_swap (a := b.day)]

theorem eq_of_compare {a b : Date} (h : a.compare b = .eq) : a = b := by
  simp only [compare, Ordering.then_eq_eq, Std.compare_eq_iff_eq] at h
  obtain ⟨hyear, hmonth, hday⟩ := h
  cases a
  cases b
  simp_all

theorem toDays_lt {a b : Date} (ha : a.Exists) (hb : b.Exists) (h : a.compare b = .lt) :
    a.toDays < b.toDays := by
  simp only [compare, Ordering.then_eq_lt, Std.compare_eq_iff_eq, Int.compare_eq_lt,
    Nat.compare_eq_lt] at h
  rcases h with hyear | ⟨hyear, hmonth | ⟨hmonth, hday⟩⟩
  · exact Int.lt_of_lt_of_le ha.toDays_bounds.2
      (Int.le_trans (daysBeforeYear_lt hyear) hb.toDays_bounds.1)
  · have hstep := ha.daysBeforeMonth_le hmonth
    have hpos := hb.day_pos
    rw [toDays_eq, toDays_eq, ← hyear]
    omega
  · rw [toDays_eq, toDays_eq, ← hyear, ← hmonth]
    omega

/-- Dates are in the order of their numbers. -/
theorem compare_toDays {a b : Date} (ha : a.Exists) (hb : b.Exists) :
    Ord.compare a.toDays b.toDays = a.compare b := by
  cases h : a.compare b with
  | lt => exact Int.compare_eq_lt.mpr (toDays_lt ha hb h)
  | eq =>
    rw [eq_of_compare h]
    exact Std.compare_self
  | gt =>
    have hswap : b.compare a = .lt := by
      rw [← compare_swap, h]
      rfl
    exact Int.compare_eq_gt.mpr (toDays_lt hb ha hswap)

theorem compare_ofDays (m n : Int) : (ofDays m).compare (ofDays n) = Ord.compare m n := by
  rw [← compare_toDays (exists_ofDays m).1 (exists_ofDays n).1, toDays_ofDays, toDays_ofDays]

theorem year_ofDays_le {m n : Int} (h : m ≤ n) : (ofDays m).year ≤ (ofDays n).year := by
  refine Int.not_lt.mp fun hyear => ?_
  have hgt : (ofDays m).compare (ofDays n) = .gt := by
    rw [compare, Int.compare_eq_gt.mpr hyear]
    rfl
  rw [compare_ofDays, Int.compare_eq_gt] at hgt
  omega

end Date

end Setlist
