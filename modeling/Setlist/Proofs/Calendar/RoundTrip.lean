import Setlist.Proofs.Calendar.Stored
import Setlist.Proofs.Calendar.Years

/-! # Written times are read back

Written in the storage layout, a time is read back as the same instant without its fraction, and
a leap second stays one. Blanks around it do not matter, and no other layout takes the text.
-/

namespace Setlist

namespace Text

theorem isBlank_of_isDigit {c : Char} (h : c.isDigit) : isBlank c = false := by
  have hc := Char.isDigit_iff_toNat.mp h
  have hle (d : Char) : d ≤ c ↔ d.toNat ≤ c.toNat := Iff.rfl
  have hge (d : Char) : c ≤ d ↔ c.toNat ≤ d.toNat := Iff.rfl
  have hne (d : Char) : c = d ↔ c.toNat = d.toNat := Char.toNat_inj.symm
  simp only [isBlank, Bool.or_eq_false_iff, Bool.and_eq_false_iff, decide_eq_false_iff_not,
    beq_eq_false_iff_ne, ne_eq, hle, hge, hne]
  simp [show '0'.toNat = 48 from rfl, show '9'.toNat = 57 from rfl] at hc ⊢
  omega

theorem dropBlanks_append {blanks rest : List Char} (hblanks : ∀ c ∈ blanks, isBlank c)
    (hrest : ∀ c ∈ rest.head?, isBlank c = false) : dropBlanks (blanks ++ rest) = rest := by
  rw [dropBlanks, List.dropWhile_append_of_pos hblanks]
  cases rest with
  | nil => rfl
  | cons c rest => exact List.dropWhile_cons_of_neg (Bool.eq_false_iff.mp (hrest c rfl))

theorem trimmed_append {before text after : List Char} (hbefore : ∀ c ∈ before, isBlank c)
    (hafter : ∀ c ∈ after, isBlank c) (hne : text ≠ [])
    (hfirst : ∀ c ∈ text.head?, isBlank c = false)
    (hlast : ∀ c ∈ text.getLast?, isBlank c = false) :
    trimmed (before ++ text ++ after) = text := by
  have hfront : dropBlanks (before ++ text ++ after) = text ++ after := by
    rw [List.append_assoc]
    refine dropBlanks_append hbefore ?_
    rwa [List.head?_append_of_ne_nil _ hne]
  have hback : dropBlanks (after.reverse ++ text.reverse) = text.reverse := by
    refine dropBlanks_append (fun c hc => hafter c (List.mem_reverse.mp hc)) ?_
    rwa [List.head?_reverse]
  rw [trimmed, hfront, List.reverse_append, hback, List.reverse_reverse]

end Text

namespace Text.Reader

theorem digits_append {most : Option Nat} {run rest : List Char} (hrun : ∀ c ∈ run, c.isDigit)
    (hne : run ≠ []) (hrest : ∀ c ∈ rest.head?, ¬c.isDigit) (hmost : ∀ n ∈ most, run.length ≤ n) :
    digits most (run ++ rest) = some (digitsValue run, rest) := by
  have hsome : run.isEmpty = false := by simpa using hne
  have hspan := Numeral.takeWhile_digits rest hrun hrest
  cases most with
  | none => simp [digits, hspan, hsome]
  | some n => simp [digits, hspan, List.take_of_length_le (hmost n rfl), hsome]

end Text.Reader

theorem Instant.truncated_eq (i : Instant) :
    i.truncated = ⟨i.seconds, i.leaps * nanosPerSecond⟩ := rfl

namespace Timestamp

open Text Text.Reader

theorem padded_ne_nil (width value : Nat) : padded width value ≠ [] :=
  fun h => absurd (List.append_eq_nil_iff.mp h).2 Nat.toDigits_ne_nil

theorem not_digit_of_cons {c : Char} (h : ¬c.isDigit) (rest : List Char) :
    ∀ d ∈ (c :: rest).head?, ¬d.isDigit := by
  rintro d ⟨⟩
  exact h

theorem digits_padded {most : Option Nat} {width value : Nat} {rest : List Char}
    (hrest : ∀ c ∈ rest.head?, ¬c.isDigit)
    (hmost : ∀ n ∈ most, (padded width value).length ≤ n) :
    digits most (padded width value ++ rest) = some (value, rest) := by
  rw [digits_append isDigit_padded (padded_ne_nil width value) hrest hmost, digitsValue_padded]

theorem dropBlanks_padded (blanks : List Char) (hblanks : ∀ c ∈ blanks, isBlank c)
    (width value : Nat) (rest : List Char) :
    dropBlanks (blanks ++ (padded width value ++ rest)) = padded width value ++ rest := by
  refine dropBlanks_append hblanks fun c hc => isBlank_of_isDigit ?_
  exact Numeral.head?_digits rest isDigit_padded (padded_ne_nil width value) c hc

theorem lenientPair_padded (blanks : List Char) (hblanks : ∀ c ∈ blanks, isBlank c) {value : Nat}
    (h : value < 100) {rest : List Char} (hrest : ∀ c ∈ rest.head?, ¬c.isDigit) :
    lenientPair (blanks ++ (padded 2 value ++ rest)) = some (value, rest) := by
  have hlength : (padded 2 value).length = 2 := length_padded (by decide) h
  refine (bind_some rfl).trans ?_
  rw [dropBlanks_padded blanks hblanks]
  refine digits_padded hrest ?_
  rintro n ⟨⟩
  exact hlength.le

theorem lenientYear_yearChars (year : Int) {rest : List Char}
    (hrest : ∀ c ∈ rest.head?, ¬c.isDigit) :
    lenientYear (yearChars year ++ rest) = some (year, rest) := by
  have hsigned (value : Nat) : digits none (padded 4 value ++ rest) = some (value, rest) :=
    digits_padded hrest nofun
  unfold yearChars
  split
  case isTrue hplain =>
    have hlength : (padded 4 year.toNat).length = 4 := length_padded (by decide) (by omega)
    have hread : digits (some 4) (padded 4 year.toNat ++ rest) = some (year.toNat, rest) := by
      refine digits_padded hrest ?_
      rintro n ⟨⟩
      exact hlength.le
    have hdrop := dropBlanks_padded [] nofun 4 year.toNat rest
    have hhead := Numeral.head?_digits rest isDigit_padded (padded_ne_nil 4 year.toNat)
    have hvalue : (year.toNat : Int) = year := Int.toNat_of_nonneg hplain.1
    refine (bind_some rfl).trans ?_
    rw [List.nil_append] at hdrop
    rw [hdrop]
    split
    case h_1 heq => exact absurd (hhead '-' (by rw [heq]; rfl)) (by decide)
    case h_2 heq => exact absurd (hhead '+' (by rw [heq]; rfl)) (by decide)
    case h_3 =>
      rw [hread]
      exact congrArg (fun value => some (value, rest)) hvalue
  case isFalse hsign =>
    refine (bind_some rfl).trans ?_
    by_cases hnegative : year < 0
    · have hvalue : -(year.natAbs : Int) = year := by omega
      rw [if_pos hnegative]
      show (digits none (padded 4 year.natAbs ++ rest)).map _ = _
      rw [hsigned]
      exact congrArg (fun value => some (value, rest)) hvalue
    · have hvalue : (year.natAbs : Int) = year := by omega
      rw [if_neg hnegative]
      show (digits none (padded 4 year.natAbs ++ rest)).map _ = _
      rw [hsigned]
      exact congrArg (fun value => some (value, rest)) hvalue

theorem validDate_eq {d : Date} (h : d.isValid = true) (text : List Char) :
    validDate d.year d.month d.day text = some (d, text) := by
  refine (bind_some (if_pos h)).trans ?_
  rfl

theorem lenientDate_dateChars {d : Date} (h : d.isValid = true) {rest : List Char}
    (hrest : ∀ c ∈ rest.head?, ¬c.isDigit) :
    lenientDate (dateChars d ++ rest) = some (d, rest) := by
  obtain ⟨-, hd⟩ := Date.isValid_iff.mp h
  have hmonth := hd.month_le
  have hday := hd.day_le_31
  have hhyphen (text : List Char) := not_digit_of_cons (c := '-') (by decide) text
  unfold dateChars
  simp only [List.append_assoc, List.cons_append]
  refine (bind_some (lenientYear_yearChars _ (hhyphen _))).trans ?_
  refine (bind_some (literal_cons _ _)).trans ?_
  refine (bind_some (lenientPair_padded [] nofun (by omega) (hhyphen _))).trans ?_
  refine (bind_some (literal_cons _ _)).trans ?_
  refine (bind_some (lenientPair_padded [] nofun (by omega) hrest)).trans ?_
  exact validDate_eq h rest

/-- The clock of an instant, a leap second being the sixtieth, gives the instant back. -/
theorem ofClock_eq {i : Instant} (hi : i.Proper) :
    Instant.ofClock i.date (i.secondOfDay / 3600) (i.secondOfDay / 60 % 60)
      (i.secondOfDay % 60 + i.leaps) 0 = i.truncated := by
  have hstart := seconds_eq i
  have hle := hi.leaps_le
  have hleap := hi.second_of_leaps
  rw [Instant.truncated_eq]
  unfold Instant.ofClock
  dsimp only
  split
  case isTrue hsixty =>
    have hone : i.leaps = 1 := by omega
    have hlast := hleap hone
    rw [hone]
    congr 1
    omega
  case isFalse hless =>
    have hzero : i.leaps = 0 := by omega
    rw [hzero]
    congr 1
    omega

theorem storageLayout_chars {i : Instant} (hi : i.Proper) (hrange : i.date.InCalendar) :
    storageLayout (chars i) = some (i.truncated, []) := by
  have hlimit := i.secondOfDay_lt
  have hle := hi.leaps_le
  have hsecond := hi.second_of_leaps
  have hvalid := Date.isValid_iff.mpr ⟨hrange, i.exists_date⟩
  have hcolon (text : List Char) := not_digit_of_cons (c := ':') (by decide) text
  have hlast : lenientPair (padded 2 (i.secondOfDay % 60 + i.leaps)) =
      some (i.secondOfDay % 60 + i.leaps, []) := by
    have hend : ∀ c ∈ ([] : List Char).head?, ¬c.isDigit := nofun
    simpa using lenientPair_padded [] nofun
      (show i.secondOfDay % 60 + i.leaps < 100 by omega) hend
  have hclock : (decide (i.secondOfDay / 3600 ≤ 23) && decide (i.secondOfDay / 60 % 60 ≤ 59) &&
      decide (i.secondOfDay % 60 + i.leaps ≤ 60)) = true := by
    simp only [Bool.and_eq_true, decide_eq_true_eq]
    omega
  unfold chars timeChars
  refine (bind_some (lenientDate_dateChars hvalid
    (not_digit_of_cons (c := ' ') (by decide) _))).trans ?_
  refine (bind_some (lenientPair_padded [' '] (List.all_eq_true.mp rfl) (by omega)
    (hcolon _))).trans ?_
  refine (bind_some (literal_cons _ _)).trans ?_
  refine (bind_some (lenientPair_padded [] nofun (by omega) (hcolon _))).trans ?_
  refine (bind_some (literal_cons _ _)).trans ?_
  refine (bind_some hlast).trans ?_
  refine (bind_some (if_pos hclock)).trans ?_
  rw [← ofClock_eq hi]
  rfl

/-- The offset is missing. -/
theorem internetLayout_chars {i : Instant} (hi : i.Proper) : internetLayout (chars i) = none := by
  have hlimit := i.secondOfDay_lt
  have hle := hi.leaps_le
  have hd := i.exists_date
  have hmonth := hd.month_le
  have hday := hd.day_le_31
  by_cases hplain : i.date.HasPlainYear
  · have hlast : exactly 2 (padded 2 (i.secondOfDay % 60 + i.leaps)) =
        some (i.secondOfDay % 60 + i.leaps, []) := by
      simpa using exactly_padded 2 (by decide) (by omega) []
    have hyear := hplain
    unfold Date.HasPlainYear at hyear
    unfold chars dateChars timeChars
    rw [yearChars_plain hplain]
    simp only [List.append_assoc, List.cons_append]
    refine (bind_some (exactly_padded 4 (by decide) (by omega) _)).trans ?_
    refine (bind_some (literal_cons _ _)).trans ?_
    refine (bind_some (exactly_padded 2 (by decide) (by omega) _)).trans ?_
    refine (bind_some (literal_cons _ _)).trans ?_
    refine (bind_some (exactly_padded 2 (by decide) (by omega) _)).trans ?_
    refine (bind_some rfl).trans ?_
    refine (bind_some (exactly_padded 2 (by decide) (by omega) _)).trans ?_
    refine (bind_some (literal_cons _ _)).trans ?_
    refine (bind_some (exactly_padded 2 (by decide) (by omega) _)).trans ?_
    refine (bind_some (literal_cons _ _)).trans ?_
    refine (bind_some hlast).trans ?_
    rfl
  · obtain ⟨sign, rest, hsign, hchars⟩ := dateChars_signed hplain
    have hdigit : ¬sign.isDigit := fun h => Nat.not_le.mpr hsign (Char.isDigit_iff_toNat.mp h).1
    rw [chars, hchars, List.cons_append]
    exact bind_none (exactly_ne hdigit _)

theorem chars_ne_nil (i : Instant) : chars i ≠ [] :=
  List.append_ne_nil_of_right_ne_nil _ (List.cons_ne_nil _ _)

theorem head?_chars (i : Instant) : ∀ c ∈ (chars i).head?, isBlank c = false := by
  intro c hc
  by_cases hplain : i.date.HasPlainYear
  · obtain ⟨digit, rest, hdigit, hchars⟩ := dateChars_plain hplain
    rw [chars, hchars] at hc
    obtain rfl := Option.some.inj hc
    exact isBlank_of_isDigit hdigit
  · have hyear : yearChars i.date.year =
        (if i.date.year < 0 then '-' else '+') :: padded 4 i.date.year.natAbs := if_neg hplain
    rw [chars, dateChars, hyear] at hc
    obtain rfl := Option.some.inj hc
    split <;> rfl

theorem getLast?_chars (i : Instant) : ∀ c ∈ (chars i).getLast?, isBlank c = false := by
  intro c hc
  have hchars : chars i =
      dateChars i.date ++ ' ' :: (padded 2 (i.secondOfDay / 3600) ++ ':' ::
        (padded 2 (i.secondOfDay / 60 % 60) ++ [':'])) ++
          padded 2 (i.secondOfDay % 60 + i.leaps) := by
    simp [chars, timeChars, Instant.leaps]
  rw [hchars, List.getLast?_append_of_ne_nil _ (padded_ne_nil _ _)] at hc
  exact isBlank_of_isDigit (isDigit_padded c (List.mem_of_getLast? hc))

theorem readChars_chars {i : Instant} (hi : i.Proper) (hrange : i.date.InCalendar)
    {before after : List Char} (hbefore : ∀ c ∈ before, isBlank c)
    (hafter : ∀ c ∈ after, isBlank c) :
    readChars (before ++ chars i ++ after) = some i.truncated := by
  have htrimmed := trimmed_append hbefore hafter (chars_ne_nil i) (head?_chars i)
    (getLast?_chars i)
  have hinternet : internetLayout.whole (chars i) = none := by
    rw [Reader.whole, internetLayout_chars hi]
  have hstorage : storageLayout.whole (chars i) = some i.truncated := by
    rw [Reader.whole, storageLayout_chars hi hrange]
  simp only [readChars, htrimmed, hinternet, hstorage]
  rfl

theorem format_truncated (i : Instant) : format i.truncated = format i := by
  have hleaps : i.truncated.nanos / Instant.nanosPerSecond = i.nanos / Instant.nanosPerSecond :=
    Nat.mul_div_cancel _ (by decide)
  simp only [format, chars, timeChars, hleaps]
  rfl

/-- A time that was read, in whichever layout, is written so that it is read back without its
fraction, whatever blanks stand around it; a leap second is read back as one. So what is written
of a time that was read is written again of what is then read. -/
theorem format_reads_back {text : String} {i : Instant} (h : read? text = some i) :
    (∀ before after : String, (∀ c ∈ before.toList, isBlank c) →
      (∀ c ∈ after.toList, isBlank c) →
        read? (before ++ format i ++ after) = some i.truncated) ∧
    i.truncated.seconds = i.seconds ∧ i.truncated.nanos = i.leaps * Instant.nanosPerSecond ∧
    (read? (format i)).map format = some (format i) := by
  have hback (before after : String) (hbefore : ∀ c ∈ before.toList, isBlank c)
      (hafter : ∀ c ∈ after.toList, isBlank c) :
      read? (before ++ format i ++ after) = some i.truncated := by
    rw [read?, String.toList_append, String.toList_append, format, String.toList_ofList]
    exact readChars_chars (proper_of_read? h) (inCalendar_of_read? h) hbefore hafter
  have hbare : read? (format i) = some i.truncated := by
    have hnone : ∀ c ∈ "".toList, isBlank c := List.forall_mem_nil _
    simpa using hback "" "" hnone hnone
  refine ⟨hback, rfl, rfl, ?_⟩
  rw [hbare, Option.map_some, format_truncated]

/-- A leap second of another zone, with a fraction, that falls into another year. -/
theorem format_reads_back_newYear : ∃ i, read? "2017-01-01T04:29:60.5+04:30" = some i ∧
    format i = "2016-12-31 23:59:60" ∧
    read? ("\t" ++ format i ++ "\u3000") = some ⟨1483228799, Instant.nanosPerSecond⟩ ∧
    (read? (format i)).map format = some (format i) := by
  have hread : read? "2017-01-01T04:29:60.5+04:30" = some ⟨1483228799, 1500000000⟩ := by
    decide +kernel
  obtain ⟨hback, -, -, hagain⟩ := format_reads_back hread
  exact ⟨_, hread, by decide +kernel, hback "\t" "\u3000" (List.all_eq_true.mp (by decide +kernel))
    (List.all_eq_true.mp (by decide +kernel)), hagain⟩

end Timestamp

end Setlist
