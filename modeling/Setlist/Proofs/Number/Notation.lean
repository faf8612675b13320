import Mathlib.Data.List.Basic
import Mathlib.Tactic.IntervalCases
import Setlist.Number.Numeral

/-! # Reading numerals

A numeral is read back from its parts: a sign, runs of digits around a point, and an exponent.
The value of a run of digits is the number that it was written for.
-/

namespace Setlist

theorem digitsValue_eq_ofDigitChars (digits : List Char) :
    digitsValue digits = Nat.ofDigitChars 10 digits 0 :=
  Nat.ofDigitChars_eq_foldl.symm

theorem digitsValue_toDigits (value : Nat) : digitsValue (Nat.toDigits 10 value) = value := by
  rw [digitsValue_eq_ofDigitChars, Nat.ofDigitChars_ten_toDigits]

theorem digitsValue_append (digits more : List Char) :
    digitsValue (digits ++ more) = digitsValue digits * 10 ^ more.length + digitsValue more := by
  rw [digitsValue_eq_ofDigitChars, Nat.ofDigitChars_append, Nat.ofDigitChars_eq_ofDigitChars_zero,
    Nat.mul_comm, digitsValue_eq_ofDigitChars, digitsValue_eq_ofDigitChars]

theorem digitsValue_zeros (count : Nat) : digitsValue (List.replicate count '0') = 0 := by
  rw [digitsValue_eq_ofDigitChars, Nat.ofDigitChars_replicate_zero, Nat.mul_zero]

theorem toDigits_isDigit {value : Nat} {c : Char} (h : c ∈ Nat.toDigits 10 value) : c.isDigit :=
  Nat.isDigit_of_mem_toDigits (by decide) (by decide) h

theorem zeros_isDigit {count : Nat} {c : Char} (h : c ∈ List.replicate count '0') : c.isDigit := by
  rw [List.eq_of_mem_replicate h]
  rfl

theorem head?_toDigits_ne {value : Nat} (h : value ≠ 0) :
    (Nat.toDigits 10 value).head? ≠ some '0' := by
  induction value using Nat.strongRecOn with
  | _ value ih =>
    rcases Nat.lt_or_ge value 10 with hlt | hge
    · rw [Nat.toDigits_of_lt_base hlt]
      interval_cases value <;> simp_all +decide
    · rw [Nat.toDigits_of_base_le (by decide) hge,
        List.head?_append_of_ne_nil _ Nat.toDigits_ne_nil]
      exact ih (value / 10) (by omega) (by omega)

namespace Numeral

theorem takeWhile_digits {digits : List Char} (rest : List Char) (hd : ∀ c ∈ digits, c.isDigit)
    (hr : ∀ c ∈ rest.head?, ¬c.isDigit) : (digits ++ rest).takeWhile Char.isDigit = digits := by
  rw [List.takeWhile_append_of_pos hd]
  cases rest with
  | nil => simp
  | cons c rest => simp [hr c rfl]

theorem dropWhile_digits {digits : List Char} (rest : List Char) (hd : ∀ c ∈ digits, c.isDigit)
    (hr : ∀ c ∈ rest.head?, ¬c.isDigit) : (digits ++ rest).dropWhile Char.isDigit = rest := by
  rw [List.dropWhile_append_of_pos hd]
  cases rest with
  | nil => simp
  | cons c rest => simp [hr c rfl]

def signChars (negative : Bool) : List Char := if negative then ['-'] else []

def signOf (negative : Bool) : Option Char := if negative then some '-' else none

theorem splitSign_signChars (negative : Bool) {text : List Char} (h : ∀ c ∈ text.head?, c.isDigit) :
    splitSign (signChars negative ++ text) = (signOf negative, text) := by
  cases negative with
  | true => rfl
  | false =>
    cases text with
    | nil => rfl
    | cons c rest =>
      have hc := h c rfl
      show splitSign (c :: rest) = (none, c :: rest)
      unfold splitSign
      split
      · simp_all
      · simp_all
      · rfl

theorem head?_digits {digits : List Char} (rest : List Char) (hd : ∀ c ∈ digits, c.isDigit)
    (hne : digits ≠ []) : ∀ c ∈ (digits ++ rest).head?, c.isDigit := by
  rw [List.head?_append_of_ne_nil _ hne]
  exact fun c hc => hd c (List.mem_of_mem_head? hc)

theorem integer?_digits (negative : Bool) {digits : List Char} (hd : ∀ c ∈ digits, c.isDigit)
    (hne : digits ≠ []) : integer? (signChars negative ++ digits) =
      some (if negative then -(digitsValue digits : Int) else digitsValue digits) := by
  have hsplit := splitSign_signChars negative (by simpa using head?_digits [] hd hne)
  have hall : (digits.isEmpty || !digits.all Char.isDigit) = false := by simpa [hne] using hd
  unfold integer?
  rw [hsplit]
  cases negative <;> simp [signOf, hall]

theorem integer?_plus {digits : List Char} (hd : ∀ c ∈ digits, c.isDigit) (hne : digits ≠ []) :
    integer? ('+' :: digits) = some (digitsValue digits : Int) := by
  have hall : (digits.isEmpty || !digits.all Char.isDigit) = false := by simpa [hne] using hd
  simp [integer?, splitSign, hall]

section Shapes

variable (negative : Bool) {whole fraction : List Char} (hw : ∀ c ∈ whole, c.isDigit)
  (hne : whole ≠ [])

include hw hne

theorem read?_whole : read? (signChars negative ++ whole) =
    some ⟨signOf negative, whole, none, none⟩ := by
  have hsplit := splitSign_signChars negative (by simpa using head?_digits [] hw hne)
  have htake := takeWhile_digits [] hw (by simp)
  have hdrop := dropWhile_digits [] hw (by simp)
  rw [List.append_nil] at htake hdrop
  unfold read?
  rw [hsplit]
  simp [htake, hdrop, splitFraction, hne]

theorem read?_fraction (hf : ∀ c ∈ fraction, c.isDigit) :
    read? (signChars negative ++ (whole ++ '.' :: fraction)) =
      some ⟨signOf negative, whole, some fraction, none⟩ := by
  have hsplit := splitSign_signChars negative (head?_digits
    ('.' :: fraction) hw hne)
  have htake := takeWhile_digits ('.' :: fraction) hw (by simp)
  have hdrop := dropWhile_digits ('.' :: fraction) hw (by simp)
  have htake' := takeWhile_digits [] hf (by simp)
  have hdrop' := dropWhile_digits [] hf (by simp)
  rw [List.append_nil] at htake' hdrop'
  unfold read?
  rw [hsplit]
  simp [htake, hdrop, splitFraction, htake', hdrop', hne]

theorem read?_power {power : List Char} {value : Int} (hp : integer? power = some value) :
    read? (signChars negative ++ (whole ++ 'e' :: power)) =
      some ⟨signOf negative, whole, none, some value⟩ := by
  have hsplit := splitSign_signChars negative (head?_digits
    ('e' :: power) hw hne)
  have htake := takeWhile_digits ('e' :: power) hw (by simp)
  have hdrop := dropWhile_digits ('e' :: power) hw (by simp)
  unfold read?
  rw [hsplit]
  simp [htake, hdrop, splitFraction, hne, hp]

theorem read?_fraction_power (hf : ∀ c ∈ fraction, c.isDigit) {power : List Char} {value : Int}
    (hp : integer? power = some value) :
    read? (signChars negative ++ (whole ++ '.' :: (fraction ++ 'e' :: power))) =
      some ⟨signOf negative, whole, some fraction, some value⟩ := by
  have hsplit := splitSign_signChars negative (head?_digits
    ('.' :: (fraction ++ 'e' :: power)) hw hne)
  have htake := takeWhile_digits ('.' :: (fraction ++ 'e' :: power)) hw (by simp)
  have hdrop := dropWhile_digits ('.' :: (fraction ++ 'e' :: power)) hw (by simp)
  have htake' := takeWhile_digits ('e' :: power) hf (by simp)
  have hdrop' := dropWhile_digits ('e' :: power) hf (by simp)
  unfold read?
  rw [hsplit]
  simp [htake, hdrop, splitFraction, htake', hdrop', hne, hp]

end Shapes

@[simp] theorem isNegative_signOf (negative : Bool) {whole : List Char}
    {fraction : Option (List Char)} {exponent : Option Int} :
    isNegative ⟨signOf negative, whole, fraction, exponent⟩ = negative := by
  cases negative <;> rfl

end Numeral

end Setlist
