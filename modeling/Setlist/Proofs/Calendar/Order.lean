import Mathlib.Data.Char
import Mathlib.Order.Compare
import Setlist.Calendar.Timestamp
import Setlist.Proofs.Calendar.Days
import Setlist.Proofs.Number.Notation

/-! # The order of written times

Times in the storage layout are in the order of their instants while their years have four
digits. Any other year is written with a sign, and signs come before all digits.
-/

namespace Setlist

theorem compare_char (c d : Char) : Ord.compare c d = Ord.compare c.toNat d.toNat := by
  have hlt (c d : Char) : Ord.compare c d = .lt ↔ c.toNat < d.toNat := compareOfLessAndEq_eq_lt
  cases h : Ord.compare c.toNat d.toNat with
  | lt => exact (hlt c d).mpr (Nat.compare_eq_lt.mp h)
  | eq =>
    rw [Char.toNat_inj.mp (Nat.compare_eq_eq.mp h)]
    exact Std.compare_self
  | gt => exact Std.OrientedCmp.gt_of_lt ((hlt d c).mpr (Nat.compare_eq_gt.mp h))

theorem compare_chars_eq_lt {a b : List Char} : Ord.compare a b = .lt ↔ a < b := by
  induction a generalizing b with
  | nil => cases b <;> simp
  | cons c a ih =>
    cases b with
    | nil => simp
    | cons d b =>
      rw [List.compare_cons_cons, Ordering.then_eq_lt, List.cons_lt_cons_iff, ih,
        Std.compare_eq_iff_eq, compare_char, Nat.compare_eq_lt]
      rfl

theorem compare_ofList (a b : List Char) :
    Ord.compare (String.ofList a) (String.ofList b) = Ord.compare a b := by
  have heq : String.ofList a = String.ofList b ↔ Ord.compare a b = .eq := by
    rw [String.ofList_inj, Std.compare_eq_iff_eq]
  show compareOfLessAndEq (String.ofList a) (String.ofList b) = Ord.compare a b
  unfold compareOfLessAndEq
  simp only [String.lt_iff, String.toList_ofList, ← compare_chars_eq_lt, heq]
  cases Ord.compare a b <;> rfl

theorem compare_append {a b : List Char} (h : a.length = b.length) (x y : List Char) :
    Ord.compare (a ++ x) (b ++ y) = (Ord.compare a b).then (Ord.compare x y) := by
  induction a generalizing b with
  | nil =>
    obtain rfl := List.length_eq_zero_iff.mp h.symm
    simp [Ordering.then]
  | cons c a ih =>
    cases b with
    | nil => cases h
    | cons d b =>
      rw [List.cons_append, List.cons_append, List.compare_cons_cons, List.compare_cons_cons,
        ih (Nat.succ.inj h), Ordering.then_assoc]

theorem compare_congr {α β : Type} [LinearOrder α] [LinearOrder β] {a b : α} {c d : β}
    (hlt : a < b ↔ c < d) (hgt : b < a ↔ d < c) : Ord.compare a b = Ord.compare c d := by
  cases h : Ord.compare c d with
  | lt => exact compare_lt_iff_lt.mpr (hlt.mpr (compare_lt_iff_lt.mp h))
  | eq =>
    obtain rfl := compare_eq_iff_eq.mp h
    have hle : b ≤ a := not_lt.mp fun hab => lt_irrefl c (hlt.mp hab)
    have hge : a ≤ b := not_lt.mp fun hba => lt_irrefl c (hgt.mp hba)
    exact compare_eq_iff_eq.mpr (le_antisymm hge hle)
  | gt => exact compare_gt_iff_gt.mpr (hgt.mpr (compare_gt_iff_gt.mp h))

/-- Numbers in two places compare by the higher place first. -/
theorem compare_places {n p q x y : Nat} (hx : x < n) (hy : y < n) :
    Ord.compare (p * n + x) (q * n + y) = (Ord.compare p q).then (Ord.compare x y) := by
  have hless {p q x y : Nat} (hx : x < n) (h : p < q) : p * n + x < q * n + y := by
    have hstep : (p + 1) * n ≤ q * n := Nat.mul_le_mul_right n h
    rw [Nat.succ_mul] at hstep
    omega
  rcases Nat.lt_trichotomy p q with h | rfl | h
  · rw [Nat.compare_eq_lt.mpr h, Nat.compare_eq_lt.mpr (hless hx h)]
    rfl
  · rw [Std.compare_self, Ordering.eq_then]
    exact compare_congr (Nat.add_lt_add_iff_left) (Nat.add_lt_add_iff_left)
  · rw [Nat.compare_eq_gt.mpr h, Nat.compare_eq_gt.mpr (hless hy h)]
    rfl

theorem compare_divMod (n : Nat) (hn : 0 < n) (a b : Nat) : Ord.compare a b =
    (Ord.compare (a / n) (b / n)).then (Ord.compare (a % n) (b % n)) := by
  rw [← compare_places (Nat.mod_lt a hn) (Nat.mod_lt b hn), Nat.div_add_mod', Nat.div_add_mod']

theorem digitsValue_cons (c : Char) (digits : List Char) : digitsValue (c :: digits) =
    (c.toNat - '0'.toNat) * 10 ^ digits.length + digitsValue digits := by
  rw [← List.singleton_append, digitsValue_append]
  simp [digitsValue]

theorem digitsValue_lt {digits : List Char} (h : ∀ c ∈ digits, c.isDigit) :
    digitsValue digits < 10 ^ digits.length := by
  induction digits with
  | nil => exact Nat.one_pos
  | cons c digits ih =>
    have hc := Char.isDigit_iff_toNat.mp (h c List.mem_cons_self)
    have hrest := ih fun d hd => h d (List.mem_cons_of_mem c hd)
    have hdigit : c.toNat - '0'.toNat ≤ 9 := Nat.sub_le_of_le_add hc.2
    have hscaled := Nat.mul_le_mul_right (10 ^ digits.length) hdigit
    rw [digitsValue_cons, List.length_cons, Nat.pow_succ]
    omega

theorem compare_digits {a b : List Char} (ha : ∀ c ∈ a, c.isDigit) (hb : ∀ c ∈ b, c.isDigit)
    (h : a.length = b.length) :
    Ord.compare a b = Ord.compare (digitsValue a) (digitsValue b) := by
  induction a generalizing b with
  | nil =>
    obtain rfl := List.length_eq_zero_iff.mp h.symm
    rfl
  | cons c a ih =>
    cases b with
    | nil => cases h
    | cons d b =>
      have hlength := Nat.succ.inj h
      have hc := Char.isDigit_iff_toNat.mp (ha c List.mem_cons_self)
      have hd := Char.isDigit_iff_toNat.mp (hb d List.mem_cons_self)
      have ha' : ∀ e ∈ a, e.isDigit := fun e he => ha e (List.mem_cons_of_mem c he)
      have hb' : ∀ e ∈ b, e.isDigit := fun e he => hb e (List.mem_cons_of_mem d he)
      have hlt := digitsValue_lt ha'
      rw [hlength] at hlt
      rw [List.compare_cons_cons, ih ha' hb' hlength, digitsValue_cons, digitsValue_cons, hlength,
        compare_places hlt (digitsValue_lt hb'), compare_char]
      congr 1
      exact compare_congr (by omega) (by omega)

def Date.HasPlainYear (d : Date) : Prop := 0 ≤ d.year ∧ d.year ≤ 9999

instance (d : Date) : Decidable d.HasPlainYear := inferInstanceAs (Decidable (_ ∧ _))

namespace Timestamp

theorem isDigit_padded {width value : Nat} : ∀ c ∈ padded width value, c.isDigit := by
  intro c hc
  rcases List.mem_append.mp hc with hzero | hdigit
  · exact zeros_isDigit hzero
  · exact toDigits_isDigit hdigit

theorem digitsValue_padded (width value : Nat) : digitsValue (padded width value) = value := by
  unfold padded
  rw [digitsValue_append, digitsValue_zeros, digitsValue_toDigits, Nat.zero_mul, Nat.zero_add]

theorem length_padded {width value : Nat} (hpos : 0 < width) (h : value < 10 ^ width) :
    (padded width value).length = width := by
  have hdigits := (Nat.length_toDigits_le_iff (by decide) hpos).mpr h
  unfold padded
  rw [List.length_append, List.length_replicate]
  omega

theorem compare_padded {width u v : Nat} (hpos : 0 < width) (hu : u < 10 ^ width)
    (hv : v < 10 ^ width) (x y : List Char) :
    Ord.compare (padded width u ++ x) (padded width v ++ y) =
      (Ord.compare u v).then (Ord.compare x y) := by
  have hlength : (padded width u).length = (padded width v).length := by
    rw [length_padded hpos hu, length_padded hpos hv]
  rw [compare_append hlength, compare_digits isDigit_padded isDigit_padded hlength,
    digitsValue_padded, digitsValue_padded]

theorem yearChars_plain {d : Date} (h : d.HasPlainYear) :
    yearChars d.year = padded 4 d.year.toNat := if_pos h

theorem dateChars_plain {d : Date} (h : d.HasPlainYear) :
    ∃ digit rest, digit.isDigit ∧ dateChars d = digit :: rest := by
  have hyear := yearChars_plain h
  cases hdigits : padded 4 d.year.toNat with
  | nil => exact absurd (List.append_eq_nil_iff.mp hdigits).2 Nat.toDigits_ne_nil
  | cons digit rest =>
    have hmem : digit ∈ padded 4 d.year.toNat := by
      rw [hdigits]
      exact List.mem_cons_self
    rw [dateChars, hyear, hdigits]
    exact ⟨digit, _, isDigit_padded digit hmem, rfl⟩

theorem dateChars_signed {d : Date} (h : ¬d.HasPlainYear) :
    ∃ sign rest, sign.toNat < '0'.toNat ∧ dateChars d = sign :: rest := by
  have hyear : yearChars d.year = (if d.year < 0 then '-' else '+') :: padded 4 d.year.natAbs :=
    if_neg h
  rw [dateChars, hyear]
  refine ⟨_, _, ?_, rfl⟩
  split <;> decide

theorem compare_separated (separator : Char) (x y : List Char) :
    Ord.compare (separator :: x) (separator :: y) = Ord.compare x y := by
  rw [List.compare_cons_cons, Std.compare_self, Ordering.eq_then]

theorem compare_dateChars {a b : Date} (ha : a.Exists) (hb : b.Exists) (hya : a.HasPlainYear)
    (hyb : b.HasPlainYear) (x y : List Char) :
    Ord.compare (dateChars a ++ x) (dateChars b ++ y) =
      (a.compare b).then (Ord.compare x y) := by
  have hyear : Ord.compare a.year.toNat b.year.toNat = Ord.compare a.year b.year := by
    unfold Date.HasPlainYear at hya hyb
    exact compare_congr (by omega) (by omega)
  have hmonth := ha.month_le
  have hmonth' := hb.month_le
  have hday := ha.day_le_31
  have hday' := hb.day_le_31
  rw [dateChars, dateChars, yearChars_plain hya, yearChars_plain hyb]
  simp only [List.append_assoc, List.cons_append]
  unfold Date.HasPlainYear at hya hyb
  rw [compare_padded (by decide) (by omega) (by omega), compare_separated,
    compare_padded (by decide) (by omega) (by omega), compare_separated,
    compare_padded (by decide) (by omega) (by omega), hyear, Date.compare,
    Ordering.then_assoc, Ordering.then_assoc]

theorem dateChars_ne_of_signed {a b : Date} (hya : a.HasPlainYear) (hyb : ¬b.HasPlainYear) :
    dateChars a ≠ dateChars b := by
  obtain ⟨digit, rest, hdigit, ha⟩ := dateChars_plain hya
  obtain ⟨sign, rest', hsign, hb⟩ := dateChars_signed hyb
  intro h
  obtain ⟨rfl, -⟩ := List.cons.inj ((ha.symm.trans h).trans hb)
  exact absurd (Char.isDigit_iff_toNat.mp hdigit).1 (Nat.not_le.mpr hsign)

theorem dateChars_eq_iff {a b : Date} (ha : a.Exists) (hb : b.Exists) (hya : a.HasPlainYear) :
    dateChars a = dateChars b ↔ a = b := by
  refine ⟨fun h => ?_, congrArg dateChars⟩
  by_cases hyb : b.HasPlainYear
  · have hcompare := compare_dateChars ha hb hya hyb [] []
    rw [h, Std.compare_self, Std.compare_self] at hcompare
    exact Date.eq_of_compare (Ordering.then_eq_eq.mp hcompare.symm).1
  · exact absurd h (dateChars_ne_of_signed hya hyb)

end Timestamp

namespace Instant

/-- The fraction runs past one only in the last second of a minute. -/
structure Proper (i : Instant) : Prop where
  nanos_lt : i.nanos < 2 * nanosPerSecond
  leap : nanosPerSecond ≤ i.nanos → i.seconds % 60 = 59

/-- One in a leap second, and zero elsewhere. -/
def leaps (i : Instant) : Nat := i.nanos / nanosPerSecond

theorem Proper.leaps_le {i : Instant} (h : i.Proper) : i.leaps ≤ 1 := by
  have hlt := h.nanos_lt
  unfold leaps nanosPerSecond at *
  omega

theorem secondOfDay_lt (i : Instant) : i.secondOfDay < 86400 := by
  unfold secondOfDay secondsPerDay
  omega

theorem Proper.second_of_leaps {i : Instant} (h : i.Proper) (hleaps : i.leaps = 1) :
    i.secondOfDay % 60 = 59 := by
  have hleap := h.leap
  unfold leaps nanosPerSecond secondOfDay secondsPerDay at *
  omega

theorem exists_date (i : Instant) : i.date.Exists := (Date.exists_ofDays _).1

theorem year_date_le {a b : Instant} (h : a.seconds ≤ b.seconds) : a.date.year ≤ b.date.year := by
  refine Date.year_ofDays_le ?_
  unfold secondsPerDay
  omega

theorem compare_eq_gt {a b : Instant} : a.compare b = .gt ↔
    b.seconds < a.seconds ∨ a.seconds = b.seconds ∧ b.nanos < a.nanos := by
  rw [compare, Ordering.then_eq_gt, Int.compare_eq_gt, Int.compare_eq_eq, Nat.compare_eq_gt]

theorem compare_eq_lt {a b : Instant} : a.compare b = .lt ↔
    a.seconds < b.seconds ∨ a.seconds = b.seconds ∧ a.nanos < b.nanos := by
  rw [compare, Ordering.then_eq_lt, Int.compare_eq_lt, Int.compare_eq_eq, Nat.compare_eq_lt]

theorem compare_truncated_eq_gt {a b : Instant} (h : a.truncated = a) :
    a.compare b.truncated = .gt ↔ a.compare b = .gt := by
  have hnanos : a.nanos / nanosPerSecond * nanosPerSecond = a.nanos := congrArg nanos h
  rw [compare_eq_gt, compare_eq_gt]
  unfold truncated nanosPerSecond at *
  dsimp only
  omega

theorem compare_seconds (a b : Instant) : Ord.compare a.seconds b.seconds =
    (Ord.compare (a.seconds / secondsPerDay) (b.seconds / secondsPerDay)).then
      (Ord.compare a.secondOfDay b.secondOfDay) := by
  unfold secondOfDay secondsPerDay
  rcases Int.lt_trichotomy (a.seconds / 86400) (b.seconds / 86400) with h | h | h
  · rw [Int.compare_eq_lt.mpr h, Int.compare_eq_lt.mpr (by omega)]
    rfl
  · rw [h, Std.compare_self, Ordering.eq_then]
    exact compare_congr (by omega) (by omega)
  · rw [Int.compare_eq_gt.mpr h, Int.compare_eq_gt.mpr (by omega)]
    rfl

end Instant

namespace Timestamp

theorem compare_padded_two {u v : Nat} (hu : u < 100) (hv : v < 100) :
    Ord.compare (padded 2 u) (padded 2 v) = Ord.compare u v := by
  simpa using compare_padded (by decide) hu hv [] []

/-- A leap second comes between its fifty-ninth second and the next minute. -/
theorem compare_timeChars {a b : Instant} (ha : a.Proper) (hb : b.Proper) :
    Ord.compare (timeChars a) (timeChars b) =
      (Ord.compare a.secondOfDay b.secondOfDay).then (Ord.compare a.leaps b.leaps) := by
  have hle := ha.leaps_le
  have hle' := hb.leaps_le
  have hsecond := ha.second_of_leaps
  have hsecond' := hb.second_of_leaps
  have hday := a.secondOfDay_lt
  have hday' := b.secondOfDay_lt
  have hshown : Ord.compare (a.secondOfDay % 60 + a.leaps) (b.secondOfDay % 60 + b.leaps) =
      (Ord.compare (a.secondOfDay % 60) (b.secondOfDay % 60)).then
        (Ord.compare a.leaps b.leaps) := by
    rw [← compare_places (n := 2) (by omega) (by omega)]
    exact compare_congr (by omega) (by omega)
  have hminutes : Ord.compare (a.secondOfDay / 60) (b.secondOfDay / 60) =
      (Ord.compare (a.secondOfDay / 3600) (b.secondOfDay / 3600)).then
        (Ord.compare (a.secondOfDay / 60 % 60) (b.secondOfDay / 60 % 60)) := by
    rw [compare_divMod 60 (by decide), Nat.div_div_eq_div_mul, Nat.div_div_eq_div_mul]
  change Ord.compare (_ ++ ':' :: (_ ++ ':' :: padded 2 (a.secondOfDay % 60 + a.leaps)))
    (_ ++ ':' :: (_ ++ ':' :: padded 2 (b.secondOfDay % 60 + b.leaps))) = _
  rw [compare_padded (by decide) (by omega) (by omega), compare_separated,
    compare_padded (by decide) (by omega) (by omega), compare_separated,
    compare_padded_two (by omega) (by omega), hshown, compare_divMod 60 (by decide) a.secondOfDay,
    hminutes, Ordering.then_assoc, Ordering.then_assoc]

/-- Times are in the order of their texts, which leave the fraction out. -/
theorem compare_format {a b : Instant} (ha : a.Proper) (hb : b.Proper)
    (hya : a.date.HasPlainYear) (hyb : b.date.HasPlainYear) :
    Ord.compare (format a) (format b) = a.truncated.compare b.truncated := by
  have hdates : a.date.compare b.date =
      Ord.compare (a.seconds / Instant.secondsPerDay) (b.seconds / Instant.secondsPerDay) := by
    rw [Instant.date, Instant.date, Date.compare_ofDays]
    exact compare_congr (by omega) (by omega)
  have hleaps : Ord.compare a.leaps b.leaps =
      Ord.compare a.truncated.nanos b.truncated.nanos := by
    unfold Instant.leaps Instant.truncated Instant.nanosPerSecond
    dsimp only
    exact compare_congr (by omega) (by omega)
  rw [format, format, compare_ofList, chars, chars,
    compare_dateChars a.exists_date b.exists_date hya hyb, compare_separated,
    compare_timeChars ha hb, hdates, ← Ordering.then_assoc, ← Instant.compare_seconds, hleaps]
  rfl

/-- A signed year comes before every other. -/
theorem compare_format_signed {a b : Instant} (hya : a.date.HasPlainYear)
    (hyb : ¬b.date.HasPlainYear) : Ord.compare (format a) (format b) = .gt := by
  obtain ⟨digit, rest, hdigit, ha⟩ := dateChars_plain hya
  obtain ⟨sign, rest', hsign, hb⟩ := dateChars_signed hyb
  have hgt := Nat.lt_of_lt_of_le hsign (Char.isDigit_iff_toNat.mp hdigit).1
  rw [format, format, compare_ofList, chars, chars, ha, hb, List.cons_append, List.cons_append,
    List.compare_cons_cons, compare_char, Nat.compare_eq_gt.mpr hgt]
  rfl

section Bounds

variable {stored bound : Instant}

theorem seconds_lt_of_signed (hyear : stored.date.HasPlainYear)
    (hsigned : ¬bound.date.HasPlainYear) (hnear : bound.date.year ≤ 9999) :
    bound.seconds < stored.seconds := by
  refine Int.not_le.mp fun hle => ?_
  have hyears := Instant.year_date_le hle
  unfold Date.HasPlainYear at hyear hsigned
  omega

variable (hstored : stored.Proper) (hwhole : stored.truncated = stored)
  (hyear : stored.date.HasPlainYear) (hbound : bound.Proper)

include hstored hwhole hyear hbound

/-- A stored time, without a fraction, comes after the text of a bound when it is later, but
after the text of a bound past the year 9999 in any case. -/
theorem compare_format_eq_gt : Ord.compare (format stored) (format bound) = .gt ↔
    stored.compare bound = .gt ∨ 9999 < bound.date.year := by
  by_cases hplain : bound.date.HasPlainYear
  · have hnear : ¬9999 < bound.date.year := Int.not_lt.mpr hplain.2
    rw [compare_format hstored hbound hyear hplain, hwhole, or_iff_left hnear]
    exact Instant.compare_truncated_eq_gt hwhole
  · rw [compare_format_signed hyear hplain]
    simp only [true_iff]
    rcases Int.lt_or_le 9999 bound.date.year with hfar | hnear
    · exact .inr hfar
    · exact .inl (Instant.compare_eq_gt.mpr (.inl (seconds_lt_of_signed hyear hplain hnear)))

/-- It comes before the text of a bound when it is earlier than the bound is without its
fraction, and never before the text of a bound past the year 9999. -/
theorem compare_format_eq_lt : Ord.compare (format stored) (format bound) = .lt ↔
    stored.compare bound.truncated = .lt ∧ bound.date.year ≤ 9999 := by
  by_cases hplain : bound.date.HasPlainYear
  · rw [compare_format hstored hbound hyear hplain, hwhole, and_iff_left hplain.2]
  · rw [compare_format_signed hyear hplain, Instant.compare_eq_lt]
    constructor
    · rintro ⟨⟩
    · rintro ⟨hless, hnear⟩
      have hlater := seconds_lt_of_signed hyear hplain hnear
      unfold Instant.truncated at hless
      dsimp only at hless
      omega

end Bounds

end Timestamp

end Setlist
