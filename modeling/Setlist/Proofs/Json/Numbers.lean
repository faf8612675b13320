import Setlist.Json.Scanner
import Setlist.Json.Writer
import Setlist.Proofs.Number.Notation
import Setlist.Proofs.Number.Rounding

/-! # Reading written JSON numbers

What is written for a number is a numeral that JSON admits and that stands for the number: for
an integer the integer itself, for a binary number a decimal to which it is the nearest.
-/

namespace Setlist

open Numeral Json

namespace Decimal

theorem digitChars_isDigit {d : Decimal} {c : Char} (h : c ∈ d.digitChars) : c.isDigit :=
  toDigits_isDigit h

theorem digitChars_ne_nil (d : Decimal) : d.digitChars ≠ [] := Nat.toDigits_ne_nil

theorem digitsValue_digitChars (d : Decimal) : digitsValue d.digitChars = d.digits :=
  digitsValue_toDigits d.digits

end Decimal

/-- A numeral that JSON reads as a real number, of the sign and with the rounding of a decimal. -/
structure Numeral.StandsFor (n : Numeral) (negative : Bool) (d : Decimal) : Prop where
  isNegative : n.isNegative = negative
  admitted : admitsNumeral n = true
  not_integer : n.isInteger = false
  nearestCode : n.decimal.nearestCode = d.nearestCode

variable {d : Decimal} (negative : Bool)

theorem admitsNumeral_of {whole : List Char} {fraction : Option (List Char)} {exponent : Option Int}
    (hne : whole ≠ []) (hw : whole.length = 1 ∨ whole.head? ≠ some '0')
    (hf : fraction ≠ some []) : admitsNumeral ⟨signOf negative, whole, fraction, exponent⟩ := by
  have hsign : signOf negative ≠ some '+' := by cases negative <;> decide
  simp [admitsNumeral, hsign, hne, hf, hw]

theorem standsFor_integer (hd : d.digits ≠ 0) (hexp : 0 ≤ d.exponent)
    (hpower : d.exponent ≤ Decimal.exponentBound) :
    Numeral.StandsFor ⟨signOf negative, d.digitChars ++ List.replicate d.exponent.toNat '0',
      some ['0'], none⟩ negative d where
  isNegative := isNegative_signOf negative
  admitted := by
    refine admitsNumeral_of negative (by simp [d.digitChars_ne_nil]) (Or.inr ?_) (by simp)
    rw [List.head?_append_of_ne_nil _ d.digitChars_ne_nil]
    exact head?_toDigits_ne hd
  not_integer := rfl
  nearestCode := by
    obtain ⟨digits, exponent⟩ := d
    obtain ⟨power, rfl⟩ := Int.eq_ofNat_of_zero_le hexp
    have hvalue : digitsValue (Decimal.digitChars ⟨digits, power⟩ ++ List.replicate power '0' ++
        ['0']) = digits * 10 ^ power * 10 := by
      rw [digitsValue_append, digitsValue_append, Decimal.digitsValue_digitChars,
        digitsValue_zeros, List.length_replicate]
      rfl
    have htenfold := Decimal.nearestCode_tenfold hd (Int.ofNat_le.mp hpower)
    rwa [← hvalue] at htenfold

theorem standsFor_fraction (hd : d.digits ≠ 0) {places : Nat} (hexp : d.exponent = -places)
    (hpos : 0 < places) (hplaces : places < d.digitChars.length) :
    Numeral.StandsFor ⟨signOf negative, d.digitChars.take (d.digitChars.length - places),
      some (d.digitChars.drop (d.digitChars.length - places)), none⟩ negative d where
  isNegative := isNegative_signOf negative
  admitted := by
    refine admitsNumeral_of negative ?_ (Or.inr ?_) ?_
    · exact List.ne_nil_of_length_pos (by rw [List.length_take]; omega)
    · rw [List.head?_take, if_neg (by omega)]
      exact head?_toDigits_ne hd
    · intro h
      have hlength := congrArg List.length (Option.some.inj h)
      rw [List.length_drop, List.length_nil] at hlength
      omega
  not_integer := rfl
  nearestCode := by
    congr 1
    simp only [decimal, Option.getD_some, Option.getD_none, List.take_append_drop,
      Decimal.digitsValue_digitChars, List.length_drop]
    rw [show (0 : Int) - (d.digitChars.length - (d.digitChars.length - places) : Nat) =
      d.exponent by omega]

theorem standsFor_small {places : Nat} (hexp : d.exponent = -places)
    (hplaces : d.digitChars.length ≤ places) :
    Numeral.StandsFor ⟨signOf negative, ['0'],
      some (List.replicate (places - d.digitChars.length) '0' ++ d.digitChars), none⟩
      negative d where
  isNegative := isNegative_signOf negative
  admitted := admitsNumeral_of negative (by simp) (Or.inl rfl) (by simp [d.digitChars_ne_nil])
  not_integer := rfl
  nearestCode := by
    congr 1
    have hvalue : digitsValue ('0' :: (List.replicate (places - d.digitChars.length) '0' ++
        d.digitChars)) = d.digits := by
      rw [← List.cons_append, ← List.replicate_succ, digitsValue_append, digitsValue_zeros,
        Decimal.digitsValue_digitChars, Nat.zero_mul, Nat.zero_add]
    simp only [decimal, Option.getD_some, Option.getD_none, List.singleton_append, hvalue,
      List.length_append, List.length_replicate]
    rw [show (0 : Int) - (places - d.digitChars.length + d.digitChars.length : Nat) =
      d.exponent by omega]

theorem standsFor_scientific {first : Char} {more : List Char}
    (hdigits : d.digitChars = first :: more) (fraction : Option (List Char))
    (hf : fraction.getD [] = more) (hne : fraction ≠ some []) :
    Numeral.StandsFor ⟨signOf negative, [first], fraction, some d.leading⟩ negative d where
  isNegative := isNegative_signOf negative
  admitted := admitsNumeral_of negative (by simp) (Or.inl rfl) hne
  not_integer := by simp [isInteger]
  nearestCode := by
    congr 1
    have hvalue : digitsValue (first :: more) = d.digits := by
      rw [← hdigits, Decimal.digitsValue_digitChars]
    simp only [decimal, hf, Option.getD_some, List.singleton_append, hvalue, Decimal.leading,
      hdigits, List.length_cons]
    rw [show ((more.length + 1 : Nat) : Int) - 1 + d.exponent - more.length = d.exponent by omega]

/-- However a decimal is written, it is read as a numeral that stands for it. -/
theorem exists_standsFor (hd : d.digits ≠ 0) :
    ∃ n : Numeral, Numeral.read? (signChars negative ++ JsonNumber.realChars d) = some n ∧
      n.StandsFor negative d := by
  have hdigits : ∀ c ∈ d.digitChars, c.isDigit := fun _ => Decimal.digitChars_isDigit
  have hlength := List.length_pos_of_ne_nil d.digitChars_ne_nil
  unfold JsonNumber.realChars
  split
  case isTrue hrange =>
    simp only [JsonNumber.greatestPositional, Decimal.leading] at hrange
    rcases Int.lt_or_le d.exponent 0 with hexp | hexp
    · rw [if_neg (by omega)]
      unfold Decimal.positional
      rw [if_neg (by omega)]
      have hplaces : d.exponent = -((-d.exponent).toNat : Int) := by omega
      simp only
      split
      case isTrue hamong =>
        refine ⟨_, ?_, standsFor_fraction negative hd hplaces (by omega) hamong⟩
        refine read?_fraction negative (fun c hc => hdigits c (List.mem_of_mem_take hc)) ?_
          (fun c hc => hdigits c (List.mem_of_mem_drop hc))
        exact List.ne_nil_of_length_pos (by rw [List.length_take]; omega)
      case isFalse hbehind =>
        refine ⟨_, ?_, standsFor_small negative hplaces (by omega)⟩
        refine read?_fraction negative (show ∀ c ∈ ['0'], c.isDigit by simp) (by simp) ?_
        intro c hc
        rcases List.mem_append.mp hc with hc | hc
        · exact zeros_isDigit hc
        · exact hdigits c hc
    · rw [if_pos hexp]
      unfold Decimal.positional
      rw [if_pos hexp]
      refine ⟨_, ?_, standsFor_integer negative hd hexp ?_⟩
      · refine read?_fraction negative ?_ (by simp [d.digitChars_ne_nil]) (by simp)
        intro c hc
        rcases List.mem_append.mp hc with hc | hc
        · exact hdigits c hc
        · exact zeros_isDigit hc
      · simp only [Decimal.exponentBound]
        omega
  case isFalse =>
    unfold Decimal.scientific
    have hpower : integer? ((if d.leading < 0 then '-' else '+') ::
        Nat.toDigits 10 d.leading.natAbs) = some d.leading := by
      have hnat : ∀ c ∈ Nat.toDigits 10 d.leading.natAbs, c.isDigit := fun _ => toDigits_isDigit
      split
      case isTrue hneg =>
        have h := integer?_digits true hnat Nat.toDigits_ne_nil
        simp only [signChars, if_true, List.singleton_append, digitsValue_toDigits] at h
        rw [h, show -(d.leading.natAbs : Int) = d.leading by omega]
      case isFalse hpos =>
        rw [integer?_plus hnat Nat.toDigits_ne_nil, digitsValue_toDigits,
          show (d.leading.natAbs : Int) = d.leading by omega]
    rcases hchars : d.digitChars with _ | ⟨first, _ | ⟨second, more⟩⟩
    · exact absurd hchars d.digitChars_ne_nil
    · refine ⟨_, ?_, standsFor_scientific negative hchars none rfl (by simp)⟩
      exact read?_power negative (fun c hc => hdigits c (hchars ▸ hc)) (by simp) hpower
    · refine ⟨_, ?_, standsFor_scientific negative hchars (some (second :: more)) rfl
        (by simp)⟩
      have hall : ∀ c ∈ first :: second :: more, c.isDigit := fun c hc => hdigits c (hchars ▸ hc)
      have hfirst : ∀ c ∈ [first], c.isDigit := by simpa using hall first (by simp)
      exact read?_fraction_power negative hfirst (by simp)
        (fun c hc => hall c (List.mem_cons_of_mem _ hc)) hpower

namespace JsonNumber

def IsValid : JsonNumber → Prop
  | integer value => minInteger ≤ value ∧ value ≤ maxInteger
  | real value => value.isFinite = true

theorem numberOfNumeral_of_standsFor {n : Numeral} {value : Binary64}
    (h : n.StandsFor value.negative d) (hcode : d.nearestCode = value.code)
    (hfinite : value.isFinite = true) : numberOfNumeral n = some (.real value) := by
  have hvalue : n.toBinary64 = value := by
    obtain ⟨negative, code, _⟩ := value
    simp only [Numeral.toBinary64, Decimal.toBinary64, Binary64.mk.injEq]
    exact ⟨h.isNegative, h.nearestCode.trans hcode⟩
  simp [numberOfNumeral, h.not_integer, hvalue, hfinite]

theorem number?_of_standsFor {word : List Char} {n : Numeral} {value : Binary64}
    (hread : Numeral.read? word = some n) (h : n.StandsFor value.negative d)
    (hcode : d.nearestCode = value.code) (hfinite : value.isFinite = true) :
    number? word = some (some (.real value)) := by
  simp [number?, hread, h.admitted, numberOfNumeral_of_standsFor h hcode hfinite]

theorem chars_integer (value : Int) : (integer value).chars =
    signChars (decide (value < 0)) ++ Nat.toDigits 10 value.natAbs := by
  simp only [chars, signChars, decide_eq_true_eq]
  split <;> rfl

theorem chars_real (value : Binary64) : (real value).chars = signChars value.negative ++
    if value.isZero then ['0', '.', '0'] else realChars (Decimal.shortest .even value.code) := by
  cases h : value.negative <;> simp [chars, signChars, h]

theorem numberOfNumeral_digits {value : Int} (h : (integer value).IsValid) :
    numberOfNumeral ⟨signOf (decide (value < 0)), Nat.toDigits 10 value.natAbs, none, none⟩ =
      some (.integer value) := by
  have hvalue : (if decide (value < 0) = true then -(value.natAbs : Int) else value.natAbs) =
      value := by
    by_cases hneg : value < 0
    · rw [if_pos (decide_eq_true hneg)]
      omega
    · rw [if_neg (by simpa using hneg)]
      omega
  simp only [numberOfNumeral, digitsValue_toDigits, isNegative_signOf, hvalue]
  rw [if_pos]
  simp only [decide_eq_true_eq]
  exact ⟨rfl, h.1, h.2, by omega⟩

theorem number?_integer {value : Int} (h : (integer value).IsValid) :
    number? (integer value).chars = some (some (.integer value)) := by
  have hdigits : ∀ c ∈ Nat.toDigits 10 value.natAbs, c.isDigit := fun _ => toDigits_isDigit
  have hread := read?_whole (decide (value < 0)) hdigits Nat.toDigits_ne_nil
  have hadmitted : admitsNumeral ⟨signOf (decide (value < 0)), Nat.toDigits 10 value.natAbs, none,
      none⟩ = true := by
    refine admitsNumeral_of _ Nat.toDigits_ne_nil ?_ (by simp)
    rcases Nat.eq_zero_or_pos value.natAbs with hzero | hpos
    · rw [hzero]
      exact Or.inl rfl
    · exact Or.inr (head?_toDigits_ne (by omega))
  rw [chars_integer, number?, hread, Option.filter_some, if_pos hadmitted, Option.map_some,
    numberOfNumeral_digits h]

theorem number?_real {value : Binary64} (h : (real value).IsValid) :
    number? (real value).chars = some (some (.real value)) := by
  rw [chars_real]
  split
  case isTrue hzero =>
    have hcode : value.code = 0 := by simpa [Binary64.isZero] using hzero
    have hdigit : ∀ c ∈ ['0'], c.isDigit := by simp
    have hread := read?_fraction value.negative hdigit (by simp) hdigit
    refine number?_of_standsFor (d := ⟨0, -1⟩) hread ⟨isNegative_signOf _, ?_, rfl, rfl⟩ ?_ h
    · exact admitsNumeral_of value.negative (by simp) (Or.inl rfl) (by simp)
    · rw [hcode, Decimal.nearestCode_zero]
  case isFalse hzero =>
    have hpos : 0 < value.code := by
      rw [Binary64.isZero, beq_iff_eq] at hzero
      omega
    have hfinite : value.code < Binary64.infinityCode := of_decide_eq_true h
    have hcode := Decimal.nearestCode_shortest .even hpos hfinite.le
    have hd := Decimal.digits_ne_zero_of_nearestCode (hcode.trans_ne (Nat.ne_of_gt hpos))
    obtain ⟨n, hread, hn⟩ := exists_standsFor value.negative hd
    exact number?_of_standsFor hread hn hcode h

theorem number?_chars {n : JsonNumber} (h : n.IsValid) : number? n.chars = some (some n) := by
  cases n with
  | integer value => exact number?_integer h
  | real value => exact number?_real h

end JsonNumber

end Setlist
