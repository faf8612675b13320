import Setlist.Proofs.Calendar.Reading
import Setlist.Proofs.Number.Rounding
import Setlist.Query.Condition

/-! # Look-back windows

A window opens some milliseconds before an instant, counted exactly, and its ends lose their
fractions. Where the calendar does not reach back so far the window opens with it, which is
before all stored times, so that stored times lie between the texts of the two ends just when
they lie in the window. Longer windows hold more times.
-/

namespace Setlist

namespace Binary64

theorem nearestCode_zero {den : Nat} (hden : 0 < den) : nearestCode 0 den = 0 := by
  simp [nearestCode, roundToEven, hden]

theorem units_nonneg_iff {x : Binary64} :
    0 ≤ x.units ↔ x.negative = false ∨ unitsOfCode x.code = 0 := by
  unfold units
  cases x.negative <;> simp

theorem ofUnits_zero_nonneg (negative : Bool) {den : Nat} (hden : 0 < den) :
    0 ≤ (ofUnits negative 0 den).units := by
  have hcode : (ofUnits negative 0 den).code = 0 := nearestCode_zero hden
  exact units_nonneg_iff.mpr (.inr (by rw [hcode]; rfl))

theorem mul_nonneg {x y : Binary64} (hx : 0 ≤ x.units) (hy : 0 ≤ y.units) :
    0 ≤ (x.mul y).units := by
  rcases units_nonneg_iff.mp hx with hx | hx
  · rcases units_nonneg_iff.mp hy with hy | hy
    · refine units_nonneg_iff.mpr (.inl ?_)
      rw [mul, ofUnits, hx, hy]
      rfl
    · rw [mul, hy, Nat.mul_zero]
      exact ofUnits_zero_nonneg _ (by positivity)
  · rw [mul, hx, Nat.zero_mul]
    exact ofUnits_zero_nonneg _ (by positivity)

theorem roundAway_nonneg {x : Binary64} (h : 0 ≤ x.units) : 0 ≤ x.roundAway := by
  rcases units_nonneg_iff.mp h with hsign | hnothing
  · simp only [roundAway, hsign, Bool.false_eq_true, if_false]
    exact Int.natCast_nonneg _
  · have hhalf : (2 * 0 + 2 ^ 1074) / 2 ^ 1075 = 0 := by decide +kernel
    simp only [roundAway, hnothing, hhalf]
    split <;> exact Int.le_refl 0

end Binary64

theorem TimeUnit.duration_bounds {unit : TimeUnit} {count : Binary64} {millis : Int}
    (h : unit.duration count = some millis) : 0 ≤ millis ∧ millis ≤ longest := by
  have hlength : 0 ≤ (Binary64.ofInt unit.length).units := by cases unit <;> decide +kernel
  have hthousand : 0 ≤ (Binary64.ofInt 1000).units := by decide +kernel
  unfold duration at h
  split at h
  case isTrue hcount =>
    dsimp only at h
    split at h
    case isTrue =>
      obtain rfl := Option.some.inj h
      have hproduct := Binary64.roundAway_nonneg
        (Binary64.mul_nonneg (Binary64.mul_nonneg hcount.2 hlength) hthousand)
      exact ⟨le_min hproduct (by decide), min_le_right _ _⟩
    case isFalse => cases h
  case isFalse => cases h

namespace Instant

/-- The whole second in which a window of some milliseconds opens that ends now. It is counted
in nanoseconds, in a calendar that has no first instant. -/
def opening (now : Instant) (millis : Int) : Instant :=
  ⟨(now.seconds * nanosPerSecond + now.nanos - millis * 1000000) / nanosPerSecond, 0⟩

/-- The time is not earlier than the window opens and not later than the present second. -/
def InWindow (time now : Instant) (millis : Int) : Prop :=
  time.compare (now.opening millis) ≠ .lt ∧ time.compare now.truncated ≠ .gt

instance (time now : Instant) (millis : Int) : Decidable (time.InWindow now millis) :=
  inferInstanceAs (Decidable (_ ∧ _))

theorem not_inWindow {time now : Instant} {millis : Int} : ¬time.InWindow now millis ↔
    time.compare (now.opening millis) = .lt ∨ time.compare now.truncated = .gt := by
  unfold InWindow
  tauto

theorem seconds_opening_le {now : Instant} {millis longer : Int} (h : millis ≤ longer) :
    (now.opening longer).seconds ≤ (now.opening millis).seconds := by
  unfold opening nanosPerSecond
  dsimp only
  omega

theorem InWindow.mono {time now : Instant} {millis longer : Int} (h : time.InWindow now millis)
    (hlonger : millis ≤ longer) : time.InWindow now longer := by
  refine ⟨fun hless => h.1 ?_, h.2⟩
  have hopening : (now.opening longer).seconds ≤ (now.opening millis).seconds :=
    seconds_opening_le hlonger
  have hnanos : (now.opening longer).nanos = 0 ∧ (now.opening millis).nanos = 0 := ⟨rfl, rfl⟩
  rw [compare_eq_lt] at hless ⊢
  omega

theorem nanos_lt_of_leaps {i : Instant} (h : i.leaps = 0) : i.nanos < nanosPerSecond := by
  unfold leaps nanosPerSecond at *
  omega

theorem proper_of_leaps {i : Instant} (h : i.leaps = 0) : i.Proper := by
  have hnanos := nanos_lt_of_leaps h
  refine ⟨?_, fun hleap => absurd hleap (Nat.not_le.mpr hnanos)⟩
  unfold nanosPerSecond at *
  omega

theorem seconds_opening_le_now {now : Instant} {millis : Int} (hleaps : now.leaps = 0)
    (hmillis : 0 ≤ millis) : (now.opening millis).seconds ≤ now.seconds := by
  have hnanos := nanos_lt_of_leaps hleaps
  unfold opening nanosPerSecond at *
  dsimp only
  omega

theorem latestSecond_far : (Instant.mk latestSecond 0).date.year = 262142 := by decide +kernel

theorem proper_earliest : earliest.Proper := proper_atMidnight _

theorem earliest_far : earliest.date.year = -262143 := by decide +kernel

theorem seconds_lt_latestSecond {i : Instant} (h : i.date.HasPlainYear) :
    i.seconds < latestSecond := by
  refine Int.not_le.mp fun hle => ?_
  have hyears := year_date_le (a := ⟨latestSecond, 0⟩) hle
  rw [latestSecond_far] at hyears
  have hyear := h.2
  omega

theorem earliest_lt_seconds {i : Instant} (h : i.date.HasPlainYear) :
    earliest.seconds < i.seconds := by
  refine Int.not_le.mp fun hle => ?_
  have hyears := year_date_le (b := earliest) hle
  rw [earliest_far] at hyears
  have hyear := h.1
  omega

section Spans

variable {now : Instant} (hleaps : now.leaps = 0)

include hleaps

/-- Where there is no leap second to leave, a span is taken off exactly. -/
theorem before?_eq (millis : Int) : ∃ start : Instant, start.truncated = now.opening millis ∧
    now.before? millis =
      if earliest.seconds ≤ start.seconds ∧ start.seconds ≤ latestSecond then some start
      else none := by
  have hnanos : ¬nanosPerSecond ≤ now.nanos := Nat.not_le.mpr (nanos_lt_of_leaps hleaps)
  have hsplit := Int.mul_tdiv_add_tmod (-millis) 1000
  refine ⟨⟨now.seconds + (-millis).tdiv 1000 + (now.nanos + (-millis).tmod 1000 * 1000000) /
      nanosPerSecond, ((now.nanos + (-millis).tmod 1000 * 1000000) % nanosPerSecond).toNat⟩, ?_,
    by simp only [before?, hnanos, false_and, if_false]⟩
  generalize (-millis).tdiv 1000 = whole at hsplit ⊢
  generalize (-millis).tmod 1000 = part at hsplit ⊢
  unfold truncated opening nanosPerSecond
  simp only [Instant.mk.injEq]
  omega

variable (hyear : now.date.HasPlainYear)

include hyear

/-- The start of a window is its opening, unless that is before the calendar begins. -/
theorem windowStart_eq {millis : Int} (hmillis : 0 ≤ millis) :
    (∃ start, now.before? millis = some start ∧ start.truncated = now.opening millis) ∨
      now.before? millis = none ∧ (now.opening millis).seconds < earliest.seconds := by
  obtain ⟨start, hopening, hbefore⟩ := before?_eq hleaps millis
  have hseconds : start.seconds = (now.opening millis).seconds := by rw [← hopening, truncated]
  have hpast := seconds_opening_le_now hleaps hmillis
  have hlatest := seconds_lt_latestSecond hyear
  by_cases hreached : earliest.seconds ≤ start.seconds
  · exact .inl ⟨start, hbefore.trans (if_pos ⟨hreached, by omega⟩), hopening⟩
  · exact .inr ⟨hbefore.trans (if_neg fun h => hreached h.1), by omega⟩

end Spans

end Instant

namespace Timestamp

section Bounds

variable {stored now : Instant} (hstored : stored.Proper) (hwhole : stored.truncated = stored)
  (hyear : stored.date.HasPlainYear) (hleaps : now.leaps = 0) (hplain : now.date.HasPlainYear)

include hstored hwhole hyear hleaps hplain

theorem compare_windowStart_eq_lt {millis : Int} (hmillis : 0 ≤ millis) :
    Ord.compare (format stored) (format ((Value.window millis).windowStart now)) = .lt ↔
      stored.compare (now.opening millis) = .lt := by
  have hopens := Instant.seconds_opening_le_now hleaps hmillis
  have hyears {start : Instant} (h : start.seconds ≤ now.seconds) : start.date.year ≤ 9999 :=
    (Instant.year_date_le h).trans hplain.2
  obtain ⟨start, hbefore, hstart⟩ | ⟨hbefore, hearly⟩ := Instant.windowStart_eq hleaps hplain hmillis
  · have hseconds : start.seconds = (now.opening millis).seconds := by
      rw [← hstart, Instant.truncated]
    have hnone : start.leaps = 0 := by
      have hnanos := congrArg Instant.nanos hstart
      unfold Instant.truncated Instant.opening Instant.nanosPerSecond at hnanos
      unfold Instant.leaps Instant.nanosPerSecond
      dsimp only at hnanos
      omega
    rw [Value.windowStart, hbefore, Option.getD_some, compare_format_eq_lt hstored hwhole hyear
      (Instant.proper_of_leaps hnone), hstart, and_iff_left (hyears (by omega))]
  · have hlater := Instant.earliest_lt_seconds hyear
    rw [Value.windowStart, hbefore, Option.getD_none,
      compare_format_eq_lt hstored hwhole hyear Instant.proper_earliest,
      and_iff_left (hyears (Int.le_of_lt (Instant.earliest_lt_seconds hplain))),
      Instant.compare_eq_lt, Instant.compare_eq_lt]
    have hwholly : Instant.earliest.truncated.seconds = Instant.earliest.seconds := rfl
    omega

theorem compare_now_eq_gt : Ord.compare (format stored) (format now) = .gt ↔
    stored.compare now.truncated = .gt := by
  rw [compare_format_eq_gt hstored hwhole hyear (Instant.proper_of_leaps hleaps),
    Instant.compare_truncated_eq_gt hwhole, or_iff_left (Int.not_lt.mpr hplain.2)]

end Bounds

end Timestamp

end Setlist
