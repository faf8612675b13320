import Mathlib.Tactic.Positivity
import Mathlib.Tactic.Ring
import Setlist.Number.Decimal

/-! # Rounding to binary numbers

Rounding depends on a quotient alone and leaves alone what is a binary number already. So the
shortest decimal of a binary number, whichever grid it is found on, reads back as that number.
-/

namespace Setlist

namespace Binary64

theorem roundToEven_mul_left {k : Nat} (hk : 0 < k) (num den : Nat) :
    roundToEven (k * num) (k * den) = roundToEven num den := by
  have hlt : 2 * (k * (num % den)) < k * den ↔ 2 * (num % den) < den := by
    rw [Nat.mul_left_comm]
    exact Nat.mul_lt_mul_left hk
  have heq : 2 * (k * (num % den)) = k * den ↔ 2 * (num % den) = den := by
    rw [Nat.mul_left_comm]
    exact Nat.mul_right_inj (Nat.ne_of_gt hk)
  simp only [roundToEven, Nat.mul_div_mul_left _ _ hk, Nat.mul_mod_mul_left, hlt, heq]

theorem nearestCode_mul_left {k : Nat} (hk : 0 < k) (num den : Nat) :
    nearestCode (k * num) (k * den) = nearestCode num den := by
  simp only [nearestCode, Nat.mul_div_mul_left _ _ hk, Nat.mul_assoc k, roundToEven_mul_left hk]

theorem roundToEven_mul_self {den : Nat} (hden : 0 < den) (num : Nat) :
    roundToEven (num * den) den = num := by
  simp [roundToEven, Nat.mul_div_cancel _ hden, hden]

theorem log2_normal {fraction shift : Nat} (h : fraction < 2 ^ 52) :
    ((2 ^ 52 + fraction) * 2 ^ shift).log2 = 52 + shift := by
  have hpos : 0 < (2 ^ 52 + fraction) * 2 ^ shift := by positivity
  rw [Nat.log2_eq_iff (Nat.ne_of_gt hpos)]
  constructor
  · rw [Nat.pow_add]
    exact Nat.mul_le_mul_right _ (by omega)
  · rw [show 52 + shift + 1 = 53 + shift by omega, Nat.pow_add]
    exact Nat.mul_lt_mul_of_pos_right (by omega) (by positivity)

theorem nearestCode_unitsOfCode {code : Nat} (h : code ≤ infinityCode) :
    nearestCode (unitsOfCode code) 1 = code := by
  simp only [nearestCode, unitsOfCode, Nat.div_one]
  split
  case isTrue hsmall =>
    have hlog : code.log2 - 52 = 0 := by
      rcases Nat.eq_zero_or_pos code with rfl | hpos
      · decide
      · have := (Nat.log2_lt (Nat.ne_of_gt hpos)).mpr hsmall
        omega
    have hround := roundToEven_mul_self Nat.one_pos code
    rw [Nat.mul_one] at hround
    rw [hlog, Nat.zero_mul, Nat.zero_add, Nat.pow_zero, Nat.mul_one, hround]
    exact Nat.min_eq_left h
  case isFalse hlarge =>
    have hmod : code % 2 ^ 52 < 2 ^ 52 := Nat.mod_lt _ (by decide)
    have hexp : 1 ≤ code / 2 ^ 52 := (Nat.one_le_div_iff (by decide)).mpr (by omega)
    have hsplit := Nat.div_add_mod' code (2 ^ 52)
    rw [log2_normal hmod, Nat.add_sub_cancel_left, Nat.one_mul,
      roundToEven_mul_self (by positivity), Nat.sub_mul,
      show code / 2 ^ 52 * 2 ^ 52 - 1 * 2 ^ 52 + (2 ^ 52 + code % 2 ^ 52) = code by omega]
    exact Nat.min_eq_left h

end Binary64

namespace Decimal

/-- A decimal that is not far outside the range is rounded as a quotient. -/
theorem nearestCode_eq {d : Decimal} (hd : d.digits ≠ 0) (hhigh : d.exponent ≤ exponentBound)
    (hlow : -(exponentBound : Int) ≤ d.exponent + d.digits.log2 + 1) :
    d.nearestCode = Binary64.nearestCode (d.digits * 10 ^ d.exponent.toNat * 2 ^ 1074)
      (10 ^ (-d.exponent).toNat) := by
  apply (if_neg hd).trans
  apply (if_neg (Int.not_lt.mpr hhigh)).trans
  exact if_neg (Int.not_lt.mpr hlow)

theorem nearestCode_integer {digits power : Nat} (hd : digits ≠ 0)
    (hpower : power ≤ exponentBound) :
    nearestCode ⟨digits, power⟩ = Binary64.nearestCode (digits * 10 ^ power * 2 ^ 1074) 1 := by
  have hplaces : (-(power : Int)).toNat = 0 := by omega
  rw [nearestCode_eq hd (Int.ofNat_le.mpr hpower) (by simp only; omega), hplaces,
    Int.toNat_natCast, Nat.pow_zero]

theorem nearestCode_fraction {digits places : Nat} (hd : digits ≠ 0)
    (hplaces : places ≤ exponentBound + digits.log2 + 1) :
    nearestCode ⟨digits, -places⟩ = Binary64.nearestCode (digits * 2 ^ 1074) (10 ^ places) := by
  have hpower : (-(places : Int)).toNat = 0 := by omega
  rw [nearestCode_eq hd (by simp only; omega) (by simp only; omega), hpower, Int.neg_neg,
    Int.toNat_natCast, Nat.pow_zero, Nat.mul_one]

theorem nearestCode_tenfold {digits power : Nat} (hd : digits ≠ 0)
    (hpower : power ≤ exponentBound) :
    nearestCode ⟨digits * 10 ^ power * 10, -(1 : Nat)⟩ = nearestCode ⟨digits, power⟩ := by
  have hmul : digits * 10 ^ power * 10 ≠ 0 := by positivity
  rw [nearestCode_fraction hmul (by omega), nearestCode_integer hd hpower]
  generalize 2 ^ 1074 = unit
  have hfactor := Binary64.nearestCode_mul_left (show 0 < 10 by decide)
    (digits * 10 ^ power * unit) 1
  have hcomm : 10 * (digits * 10 ^ power * unit) = digits * 10 ^ power * 10 * unit := by ring
  rwa [hcomm] at hfactor

theorem nearestCode_of_onGrid {tie : Tie} {code : Nat} {exponent : Int} {d : Decimal}
    (h : onGrid tie code exponent = some d) : d.nearestCode = code := by
  simp only [onGrid] at h
  split at h
  case h_1 hlow _ =>
    cases h
    exact of_decide_eq_true hlow
  case h_2 _ hhigh =>
    cases h
    exact of_decide_eq_true hhigh
  case h_3 => cases h
  case h_4 hlow hhigh =>
    have hlow := of_decide_eq_true hlow
    have hhigh := of_decide_eq_true hhigh
    split at h
    · cases h; exact hlow
    · cases h; exact hhigh
    · split at h <;> cases h
      · exact hlow
      · exact hhigh

theorem unitsOfCode_pos {code : Nat} (hpos : 0 < code) : 0 < Binary64.unitsOfCode code := by
  unfold Binary64.unitsOfCode
  split
  · exact hpos
  · positivity

theorem le_log2_mul_pow {units : Nat} (hunits : 0 < units) (places : Nat) :
    places ≤ (units * 5 ^ places).log2 := by
  have hdigits : 2 ^ places ≤ units * 5 ^ places :=
    (Nat.pow_le_pow_left (by decide) _).trans (Nat.le_mul_of_pos_left _ hunits)
  exact (Nat.le_log2 (by positivity)).mpr hdigits

theorem nearestCode_finest {code : Nat} (hpos : 0 < code) (h : code ≤ Binary64.infinityCode) :
    nearestCode ⟨Binary64.unitsOfCode code * 5 ^ 1074, -1074⟩ = code := by
  have hunits := unitsOfCode_pos hpos
  have hcancel : ∀ places : Nat, Binary64.nearestCode
      (Binary64.unitsOfCode code * 5 ^ places * 2 ^ places) (10 ^ places) = code := by
    intro places
    have hfactor := Binary64.nearestCode_mul_left (show 0 < 10 ^ places by positivity)
      (Binary64.unitsOfCode code) 1
    rw [Nat.mul_one, Binary64.nearestCode_unitsOfCode h] at hfactor
    rwa [Nat.mul_assoc, ← Nat.mul_pow, Nat.mul_comm]
  have hne : ∀ places : Nat, Binary64.unitsOfCode code * 5 ^ places ≠ 0 := fun _ => by positivity
  have hlog := le_log2_mul_pow hunits 1074
  have hpoint := nearestCode_fraction (hne 1074)
    (Nat.le_succ_of_le (Nat.le_add_left_of_le hlog))
  exact hpoint.trans (hcancel 1074)

theorem nearestCode_coarsest (tie : Tie) {code : Nat} (hpos : 0 < code)
    (h : code ≤ Binary64.infinityCode) (depth : Nat) :
    (coarsest tie code depth).nearestCode = code := by
  induction depth with
  | zero =>
    exact nearestCode_finest hpos h
  | succ depth ih =>
    unfold coarsest
    split
    case h_1 d hd => exact nearestCode_of_onGrid hd
    case h_2 => exact ih

/-- The written decimal of a nonzero number reads back as the number. -/
theorem nearestCode_shortest (tie : Tie) {code : Nat} (hpos : 0 < code)
    (h : code ≤ Binary64.infinityCode) : (shortest tie code).nearestCode = code :=
  nearestCode_coarsest tie hpos h _

theorem nearestCode_zero (exponent : Int) : nearestCode ⟨0, exponent⟩ = 0 := if_pos rfl

theorem digits_ne_zero_of_nearestCode {d : Decimal} (h : d.nearestCode ≠ 0) : d.digits ≠ 0 :=
  fun hd => h (if_pos hd)

end Decimal

end Setlist
