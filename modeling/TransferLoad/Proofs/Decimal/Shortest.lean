import TransferLoad.Decimal.Shortest
import TransferLoad.Proofs.Decimal.Rounding
import TransferLoad.Proofs.Text.Numeral

/-!
# The text of a double

The text of a double has no exponent. Of a large whole number it keeps seventeen digits at most and fills up
with zeros.
-/

namespace TransferLoad.Decimal

open Text

/-! ### Characters -/

/-- What stands in the text of a double besides digits: sign, point, and the letters of three words. -/
def marks : List Char := ['-', '.', 'i', 'n', 'f', 'N', 'a']

def Plain (chars : List Char) : Prop := ∀ c ∈ chars, c.isDigit = true ∨ c ∈ marks

theorem Plain.append {first second : List Char} (hfirst : Plain first) (hsecond : Plain second) :
    Plain (first ++ second) :=
  fun c hc => (List.mem_append.mp hc).elim (hfirst c) (hsecond c)

theorem plain_of_digits {chars : List Char} (hdigits : AllDigits chars) : Plain chars :=
  fun c hc => Or.inl (hdigits c hc)

theorem plain_of_marks {chars : List Char} (hmarks : chars.all marks.contains = true) : Plain chars :=
  fun c hc => Or.inr (List.mem_of_elem_eq_true (List.all_eq_true.mp hmarks c hc))

theorem plain_sign (negative : Bool) : Plain (if negative then "-" else "").toList := by
  cases negative
  · exact plain_of_marks (by decide)
  · exact plain_of_marks (by decide)

theorem plain_positional (d : Digits) : Plain d.positional.toList := by
  unfold Digits.positional
  split
  · exact plain_of_digits (allDigits_toString _)
  · dsimp only
    rw [String.toList_append]
    refine (plain_of_digits (allDigits_toString _)).append ?_
    split
    · exact plain_of_marks (by decide)
    · rw [String.toList_append]
      refine (plain_of_marks (by decide)).append (plain_of_digits fun c hc => ?_)
      rw [String.toList_ofList] at hc
      have hmem := List.mem_reverse.mp ((List.dropWhile_suffix _).subset (List.mem_reverse.mp hc))
      exact Nat.isDigit_of_mem_toDigits (by decide) (by decide) (List.mem_of_mem_drop hmem)

theorem plain_toText (x : Binary) : Plain (toText x).toList := by
  cases x with
  | notANumber => exact plain_of_marks (by decide)
  | infinite negative =>
    cases negative
    · exact plain_of_marks (by decide)
    · exact plain_of_marks (by decide)
  | finite negative mantissa exponent =>
    rw [toText, String.toList_append]
    refine (plain_sign negative).append ?_
    split
    · exact plain_of_digits (allDigits_toString 0)
    · exact plain_positional _

/-! ### Large whole numbers -/

theorem exponent_of_onGrid? {i : Interval} {exponent power : Int} {d : Digits}
    (hgrid : onGrid? i exponent power = some d) : d.exponent = power := by
  unfold onGrid? at hgrid
  dsimp only at hgrid
  split_ifs at hgrid <;> cases hgrid <;> rfl

/-- The digits of a double end at most sixteen places after the first one. -/
theorem exponent_shortest (m e : Nat) : 
    leadingPlace m e - 16 ≤ (shortest m e).exponent ∨ (shortest m e).exponent = e := by
  unfold shortest
  dsimp only
  cases hfound : (List.range 17).findSome? fun (n : Nat) => onGrid? (Interval.of m e) e (leadingPlace m e - n) with
  | none => exact Or.inr rfl
  | some d =>
    obtain ⟨n, hn, hgrid⟩ := List.exists_of_findSome?_eq_some hfound
    rw [Option.getD_some, exponent_of_onGrid? hgrid]
    have := List.mem_range.mp hn
    exact Or.inl (by omega)

theorem le_leadingPlace {m e k : Nat} (hlarge : 10 ^ k ≤ m * 2 ^ e) : (k : Int) ≤ leadingPlace m e := by
  have hexact : Fraction.ofBinary m e = ⟨m * 2 ^ e, 1⟩ := by
    simp [Fraction.ofBinary, Nat.shiftLeft_eq]
  have hlength : k < (Nat.toDigits 10 (m * 2 ^ e)).length := by
    cases k with
    | zero => exact Nat.length_toDigits_pos
    | succ k =>
      by_contra hle
      have := (Nat.length_toDigits_le_iff (by decide) (Nat.succ_pos k)).mp (Nat.le_of_not_lt hle)
      omega
  have hone : 1 ≤ m * 2 ^ e := (Nat.pow_pos (by decide)).trans_le hlarge
  simp only [leadingPlace, hexact, Nat.div_one, if_pos hone]
  omega

/-- Rounding to 53 bits does not take a digit away from a number. -/
theorem le_nearest {n k : Nat} (hlarge : 10 ^ (k + 1) ≤ n) (hbits : 52 < n.log2) :
    10 ^ k ≤ Fraction.roundHalfEven ⟨n, 2 ^ (n.log2 - 52)⟩ * 2 ^ (n.log2 - 52) := by
  have hn : n ≠ 0 := by
    rintro rfl
    simp at hbits
  have hunit : 2 * 2 ^ (n.log2 - 52) ≤ n := by
    rw [← Nat.pow_succ']
    exact (Nat.pow_le_pow_right (by decide) (by omega)).trans (Nat.log2_self_le hn)
  have hpos : 0 < 2 ^ (n.log2 - 52) := Nat.pow_pos (by decide)
  generalize 2 ^ (n.log2 - 52) = unit at *
  have hfloor := Nat.mul_le_mul_right unit (Fraction.roundHalfEven_bounds n unit).1
  have hdivision := Nat.div_add_mod n unit
  have hrest := Nat.mod_lt n hpos
  rw [Nat.mul_comm] at hdivision
  rw [Nat.pow_succ] at hlarge
  omega

/-- The text of a large whole number ends in zeros. -/
theorem toText_nearest {n k : Nat} (hk : 18 ≤ k) (hlarge : 10 ^ k ≤ n) (hsmall : n < 10 ^ 70) :
    ∃ digits zeros, k - 17 ≤ zeros ∧ toText (.nearest false ⟨n, 1⟩) = toString (digits * 10 ^ zeros) := by
  have hn : n ≠ 0 := by
    have := Nat.pow_pos (n := k) (show 0 < 10 by decide)
    omega
  have hlow : 3 * k ≤ n.log2 := by
    rw [Nat.le_log2 hn]
    calc 2 ^ (3 * k) = 8 ^ k := by rw [Nat.pow_mul]
      _ ≤ 10 ^ k := Nat.pow_le_pow_left (by decide) k
      _ ≤ n := hlarge
  have hhigh : n.log2 < 240 := (Nat.log2_lt hn).mpr (hsmall.trans (by norm_num))
  obtain ⟨m, e, hnearest, hm, he, -, hvalue⟩ := Binary.nearest_nat (n := n) (by omega) (by omega)
  obtain ⟨k, rfl⟩ : ∃ j, k = j + 1 := ⟨k - 1, by omega⟩
  have hplace := le_leadingPlace (hvalue ▸ le_nearest hlarge (by omega) : 10 ^ k ≤ m * 2 ^ e)
  have hexponent : ((k - 16 : Nat) : Int) ≤ (shortest m e).exponent := by
    rcases exponent_shortest m e with h | h <;> omega
  refine ⟨(shortest m e).digits, (shortest m e).exponent.toNat, by omega, ?_⟩
  rw [hnearest, toText, if_neg (by decide), if_neg hm.ne', Digits.positional, if_pos (by omega), String.empty_append]
  rfl

end TransferLoad.Decimal
