import Mathlib
import TransferLoad.Decimal.Binary

/-!
# Whole numbers as doubles

A whole number of more than 52 bits becomes a double that counts in units of a power of two: the number is
rounded to the nearest multiple of the unit. From 2^63 to 2^64 the unit is 2048. Up to there a number of 64
bits comes back from its double if it is such a multiple, or if it is the largest number, at which the way back
is cut off.
-/

namespace TransferLoad.Decimal

/-! ### Rounding -/

theorem Fraction.roundHalfEven_bounds (n d : Nat) :
    n / d ≤ Fraction.roundHalfEven ⟨n, d⟩ ∧ Fraction.roundHalfEven ⟨n, d⟩ ≤ n / d + 1 := by
  simp only [roundHalfEven]
  split_ifs <;> omega

/-- A multiple is not rounded, and nothing else is left as it is. -/
theorem Fraction.roundHalfEven_mul_eq_iff {n d : Nat} (hd : 0 < d) :
    Fraction.roundHalfEven ⟨n, d⟩ * d = n ↔ d ∣ n := by
  constructor
  · exact fun heq => Dvd.intro_left _ heq
  · rintro ⟨q, rfl⟩
    simp only [roundHalfEven, Nat.mul_mod_right, Nat.mul_div_cancel_left q hd, Nat.mul_zero, if_pos hd]
    exact Nat.mul_comm q d

/-! ### The double of a whole number -/

theorem Fraction.binade_nat {n : Nat} (hn : n ≠ 0) : Fraction.binade ⟨n, 1⟩ = n.log2 := by
  have hguess : (n.log2 : Int) - (Nat.log2 1 : Nat) = n.log2 := by
    rw [show Nat.log2 1 = 0 from rfl, Int.ofNat_zero, Int.sub_zero]
  have hunits : Fraction.inUnits ⟨n, 1⟩ n.log2 = ⟨n, 2 ^ n.log2⟩ := by
    simp [inUnits, Nat.one_shiftLeft]
  simp only [binade, hguess, hunits]
  exact if_pos (Nat.log2_self_le hn)

/-- A whole number with many bits is rounded to units of a power of two. -/
theorem Binary.nearest_nat {n : Nat} (hlarge : 52 ≤ n.log2) (hsmall : n.log2 ≤ 1000) :
    ∃ m e : Nat, Binary.nearest false ⟨n, 1⟩ = .finite false m e ∧ 0 < m ∧ n.log2 - 52 ≤ e ∧ e ≤ n.log2 - 51 ∧
      m * 2 ^ e = Fraction.roundHalfEven ⟨n, 2 ^ (n.log2 - 52)⟩ * 2 ^ (n.log2 - 52) := by
  have hn : n ≠ 0 := by
    rintro rfl
    simp at hlarge
  obtain ⟨k, hk⟩ : ∃ k, n.log2 = k + 52 := ⟨n.log2 - 52, by omega⟩
  have hexponent : max (Fraction.binade ⟨n, 1⟩ - (fractionBits : Int)) minExponent = (k : Int) := by
    rw [Fraction.binade_nat hn, hk, fractionBits, minExponent]
    omega
  have hunits : Fraction.inUnits ⟨n, 1⟩ (k : Int) = ⟨n, 2 ^ k⟩ := by
    simp [Fraction.inUnits, Nat.one_shiftLeft]
  have hlow : 0 < Fraction.roundHalfEven ⟨n, 2 ^ k⟩ := by
    refine lt_of_lt_of_le ?_ (Fraction.roundHalfEven_bounds n (2 ^ k)).1
    refine Nat.div_pos ((Nat.pow_le_pow_right (by decide) ?_).trans (Nat.log2_self_le hn)) (by positivity)
    omega
  rw [hk, Nat.add_sub_cancel]
  simp only [nearest, hn, if_false, hexponent, hunits]
  by_cases hcarry : Fraction.roundHalfEven ⟨n, 2 ^ k⟩ = 2 <<< fractionBits
  · refine ⟨1 <<< fractionBits, k + 1, ?_, by decide, by omega, by omega, ?_⟩
    · rw [if_pos hcarry]
      exact if_neg (by rw [maxExponent]; omega)
    · rw [hcarry, Nat.pow_succ]
      simp only [fractionBits]
      omega
  · refine ⟨_, k, ?_, hlow, by omega, by omega, rfl⟩
    rw [if_neg hcarry]
    exact if_neg (by rw [maxExponent]; omega)

/-- The way to the double of a number of 64 bits and back, from 2^63 on. -/
theorem saturatedNat_nearest {n : Nat} (hlow : 2 ^ 63 ≤ n) (hhigh : n < 2 ^ 64) :
    saturatedNat (.nearest false ⟨n, 1⟩) = min (2048 * Fraction.roundHalfEven ⟨n, 2048⟩) (UInt64.size - 1) := by
  have hlog : n.log2 = 63 := by
    refine le_antisymm (Nat.le_of_lt_succ ((Nat.log2_lt (by omega)).mpr hhigh)) ?_
    exact (Nat.le_log2 (by omega)).mpr hlow
  obtain ⟨m, e, hnearest, -, -, he, hvalue⟩ := Binary.nearest_nat (n := n) (by omega) (by omega)
  rw [hlog, show 2 ^ (63 - 52) = 2048 from rfl] at hvalue
  have hsmall : ¬(64 : Int) ≤ (e : Int) := by omega
  have hwhole : (Fraction.ofBinary m e).roundHalfUp = m * 2 ^ e := by
    simp only [Fraction.ofBinary, Int.natCast_nonneg, if_true, Int.toNat_natCast, Fraction.roundHalfUp,
      Nat.shiftLeft_eq]
    omega
  simp only [saturatedNat, hnearest, if_neg hsmall, hwhole, hvalue, Bool.false_eq_true, if_false]
  rw [Nat.mul_comm]

/-- A number of 64 bits from 2^63 on comes back if it is a multiple of 2048 or the largest. -/
theorem saturatedNat_nearest_eq_iff {n : Nat} (hlow : 2 ^ 63 ≤ n) (hhigh : n < 2 ^ 64) :
    saturatedNat (.nearest false ⟨n, 1⟩) = n ↔ 2048 ∣ n ∨ n = UInt64.size - 1 := by
  rw [saturatedNat_nearest hlow hhigh, ← Fraction.roundHalfEven_mul_eq_iff (by decide)]
  have hfloor := (Fraction.roundHalfEven_bounds n 2048).1
  have hsize : UInt64.size = 2 ^ 64 := rfl
  constructor
  · intro hmin
    omega
  · rintro (hexact | rfl)
    · omega
    · decide

end TransferLoad.Decimal
