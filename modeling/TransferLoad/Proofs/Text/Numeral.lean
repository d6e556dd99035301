import Mathlib
import TransferLoad.Text.Numeral
import TransferLoad.Text.Lowercase

/-!
# Numerals are read as they are written

A text of digits has a value, and it is read as this value up to the bound and refused above it. What is read
at all, without a sign, is such a text.
-/

namespace TransferLoad.Text

variable {chars : List Char} {c : Char} {bound value n : Nat} {tooFar : NumeralError}

def AllDigits (chars : List Char) : Prop := ∀ c ∈ chars, c.isDigit = true

/-- The value of a text of digits. -/
abbrev digitsValue (chars : List Char) : Nat := Nat.ofDigitChars 10 chars 0

theorem isDigit_iff : c.isDigit = true ↔ 48 ≤ c.toNat ∧ c.toNat ≤ 57 := Char.isDigit_iff_toNat

theorem digit?_eq : digit? c = if c.isDigit then some (c.toNat - 48) else none := by
  have hc : ('0' ≤ c ∧ c ≤ '9') ↔ c.isDigit = true := Char.isDigit_iff_toNat.symm
  simp only [digit?, hc]

theorem ofDigitChars_cons (c : Char) (rest : List Char) (value : Nat) :
    Nat.ofDigitChars 10 (c :: rest) value = Nat.ofDigitChars 10 rest (10 * value + (c.toNat - 48)) :=
  Nat.ofDigitChars_cons

/-- Digits after a value only add to it. -/
theorem le_ofDigitChars (chars : List Char) (value : Nat) : value ≤ Nat.ofDigitChars 10 chars value := by
  rw [Nat.ofDigitChars_eq_ofDigitChars_zero]
  have := Nat.le_mul_of_pos_left value (Nat.pow_pos (n := chars.length) (show 0 < 10 by decide))
  omega

theorem digitsValue_lt (hdigits : AllDigits chars) : digitsValue chars < 10 ^ chars.length := by
  induction chars with
  | nil => decide
  | cons c rest ih =>
    rw [AllDigits, List.forall_mem_cons] at hdigits
    have hc := isDigit_iff.mp hdigits.1
    have hrest : Nat.ofDigitChars 10 rest 0 < 10 ^ rest.length := ih hdigits.2
    rw [digitsValue, ofDigitChars_cons, Nat.ofDigitChars_eq_ofDigitChars_zero, List.length_cons, Nat.pow_succ]
    have hfirst : 10 ^ rest.length * (10 * 0 + (c.toNat - 48)) ≤ 10 ^ rest.length * 9 :=
      Nat.mul_le_mul_left _ (by omega)
    omega

theorem readDigits_of_digits (hdigits : AllDigits chars) (hvalue : value ≤ bound) :
    readDigits bound tooFar value chars =
      if Nat.ofDigitChars 10 chars value ≤ bound then .ok (Nat.ofDigitChars 10 chars value)
      else .error tooFar := by
  induction chars generalizing value with
  | nil => rw [readDigits, Nat.ofDigitChars_nil, if_pos hvalue]
  | cons c rest ih =>
    rw [AllDigits, List.forall_mem_cons] at hdigits
    have hrest := le_ofDigitChars rest (10 * value + (c.toNat - 48))
    simp only [readDigits, digit?_eq, hdigits.1, if_true, ofDigitChars_cons]
    by_cases hstep : 10 * value + (c.toNat - 48) ≤ bound
    · rw [if_pos hstep, ih hdigits.2 hstep]
    · rw [if_neg hstep, if_neg fun hle => hstep (hrest.trans hle)]

theorem digits_of_readDigits (hread : readDigits bound tooFar value chars = .ok n) : AllDigits chars := by
  induction chars generalizing value with
  | nil => exact nofun
  | cons c rest ih =>
    rw [readDigits, digit?_eq] at hread
    split at hread
    · cases hread
    · rename_i hdigit
      split at hread
      · rw [AllDigits, List.forall_mem_cons]
        exact ⟨by simpa using (Option.ite_none_right_eq_some.mp hdigit).1, ih hread⟩
      · cases hread

/-! ### Whole numbers -/

/-- The first character is no sign. -/
theorem unsigned_of_digits {rest : List Char} (hdigits : AllDigits (c :: rest)) : c ≠ '+' ∧ c ≠ '-' := by
  have hc := hdigits c List.mem_cons_self
  constructor
  · rintro rfl
    cases hc
  · rintro rfl
    cases hc

theorem readNat_of_digits (hne : chars ≠ []) (hdigits : AllDigits chars) :
    readNat bound chars =
      if digitsValue chars ≤ bound then .ok (digitsValue chars) else .error .tooLarge := by
  cases chars with
  | nil => exact absurd rfl hne
  | cons c rest =>
    obtain ⟨hplus, -⟩ := unsigned_of_digits hdigits
    rw [← readDigits_of_digits hdigits (Nat.zero_le _), readNat] <;> simp [hplus]

theorem readInt64_of_unsigned {rest : List Char} (hplus : c ≠ '+') (hminus : c ≠ '-') :
    readInt64 (c :: rest) = Int.ofNat <$> readDigits ((1 <<< 63) - 1) .tooLarge 0 (c :: rest) := by
  rw [readInt64] <;> simp [hplus, hminus]

theorem readInt64_of_digits (hne : chars ≠ []) (hdigits : AllDigits chars) :
    readInt64 chars =
      if digitsValue chars < 2 ^ 63 then .ok (digitsValue chars : Int) else .error .tooLarge := by
  cases chars with
  | nil => exact absurd rfl hne
  | cons c rest =>
    obtain ⟨hplus, hminus⟩ := unsigned_of_digits hdigits
    rw [readInt64_of_unsigned hplus hminus, readDigits_of_digits hdigits (Nat.zero_le _)]
    have hbound : digitsValue (c :: rest) < 2 ^ 63 ↔ digitsValue (c :: rest) ≤ (1 <<< 63) - 1 :=
      Nat.lt_iff_le_pred (by decide)
    by_cases hsmall : digitsValue (c :: rest) < 2 ^ 63
    · rw [if_pos hsmall, if_pos (hbound.mp hsmall)]
      rfl
    · rw [if_neg hsmall, if_neg fun hle => hsmall (hbound.mpr hle)]
      rfl

/-- What is read without a sign is a text of digits. -/
theorem digits_of_readInt64 {rest : List Char} {z : Int} (hplus : c ≠ '+') (hminus : c ≠ '-')
    (hread : readInt64 (c :: rest) = .ok z) : AllDigits (c :: rest) := by
  rw [readInt64_of_unsigned hplus hminus] at hread
  cases hdigits : readDigits ((1 <<< 63) - 1) .tooLarge 0 (c :: rest) with
  | error cause =>
    rw [hdigits] at hread
    cases hread
  | ok n => exact digits_of_readDigits hdigits

/-! ### The numeral of a number -/

theorem toList_toString (n : Nat) : (toString n).toList = Nat.toDigits 10 n := by
  rw [Nat.toString_eq_ofList_toDigits, String.toList_ofList]

theorem allDigits_toString (n : Nat) : AllDigits (toString n).toList := by
  rw [toList_toString]
  exact fun c hc => Nat.isDigit_of_mem_toDigits (by decide) (by decide) hc

theorem toList_toString_ne_nil (n : Nat) : (toString n).toList ≠ [] := by
  rw [toList_toString]
  exact Nat.toDigits_ne_nil

theorem digitsValue_toString (n : Nat) : digitsValue (toString n).toList = n := by
  rw [toList_toString, digitsValue, Nat.ofDigitChars_ten_toDigits]

theorem readNat_toString (hn : n ≤ bound) : readNat bound (toString n).toList = .ok n := by
  rw [readNat_of_digits (toList_toString_ne_nil n) (allDigits_toString n), digitsValue_toString, if_pos hn]

/-! ### Digits have no case -/

theorem lowercaseAfter_of_ascii {before : Option Char} (hascii : ∀ c ∈ chars, c.toNat < 128) :
    lowercaseAfter before chars = chars.map Char.toLower := by
  induction chars generalizing before with
  | nil => rfl
  | cons c rest ih =>
    rw [List.forall_mem_cons] at hascii
    simp only [lowercaseAfter, lowercaseChar]
    rw [if_neg (by omega), if_pos hascii.1, ih hascii.2]
    rfl

theorem toLower_of_isDigit (hc : c.isDigit = true) : c.toLower = c := by
  apply Char.toLower_eq_of_not_isUpper
  simp only [Char.isUpper, UInt32.le_iff_toNat_le, ge_iff_le, decide_eq_true_eq]
  exact fun hupper => absurd (hupper.1.trans (isDigit_iff.mp hc).2) (by decide)

theorem map_toLower_of_digits (hdigits : AllDigits chars) : chars.map Char.toLower = chars :=
  (List.map_congr_left fun c hc => toLower_of_isDigit (hdigits c hc)).trans (List.map_id _)

theorem lowercase_of_digits {s : String} (hdigits : AllDigits s.toList) : lowercase s = s := by
  have hascii : ∀ c ∈ s.toList, c.toNat < 128 := fun c hc => by
    have := isDigit_iff.mp (hdigits c hc)
    omega
  rw [lowercase, lowercaseAfter_of_ascii hascii, map_toLower_of_digits hdigits, String.ofList_toList]

end TransferLoad.Text
