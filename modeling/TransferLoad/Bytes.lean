/-!
# Byte strings

Everything that is hashed, signed, sent or written to disk is a list of bytes. Numbers enter such a
list in a fixed width with the least significant byte first, so that two numbers below the width's
bound have the same bytes only if they are equal.
-/

namespace TransferLoad

abbrev Bytes := List UInt8

/-- Exactly 32 bytes: an address or a public key. -/
abbrev Bytes32 := { bytes : Bytes // bytes.length = 32 }

namespace Bytes

/-- The `width` low bytes of a number, least significant first. -/
def ofNatLE : (width : Nat) → Nat → Bytes
  | 0, _ => []
  | width + 1, n => UInt8.ofNat n :: ofNatLE width (n / 256)

/-- The number whose bytes these are, least significant first. -/
def toNatLE : Bytes → Nat
  | [] => 0
  | byte :: rest => byte.toNat + 256 * toNatLE rest

/-- The number whose bytes these are, most significant first. -/
def toNatBE (bytes : Bytes) : Nat :=
  bytes.foldl (fun n byte => 256 * n + byte.toNat) 0

/-- Consecutive pieces of `size + 1` bytes each; the last may be shorter. -/
def chunks (size : Nat) (bytes : Bytes) : List Bytes :=
  if h : bytes = [] then []
  else
    have : (bytes.drop (size + 1)).length < bytes.length := by
      have : 0 < bytes.length := List.length_pos_iff.mpr h
      simp only [List.length_drop]
      omega
    bytes.take (size + 1) :: chunks size (bytes.drop (size + 1))
termination_by bytes.length

@[simp] theorem length_ofNatLE (width n : Nat) : (ofNatLE width n).length = width := by
  induction width generalizing n with
  | zero => rfl
  | succ width ih => simp [ofNatLE, ih]

/-- Reading back a number that fits its width gives the number. -/
theorem toNatLE_ofNatLE {width n : Nat} (hfits : n < Nat.pow 256 width) :
    toNatLE (ofNatLE width n) = n := by
  induction width generalizing n with
  | zero => simp only [Nat.pow_eq, Nat.pow_zero, Nat.lt_one_iff] at hfits; simp [ofNatLE, toNatLE, hfits]
  | succ width ih =>
    have hrest : n / 256 < Nat.pow 256 width := by
      rw [Nat.pow_eq, Nat.pow_succ] at hfits
      exact Nat.div_lt_of_lt_mul (by rwa [Nat.mul_comm])
    simp only [ofNatLE, toNatLE, ih hrest, UInt8.toNat_ofNat']
    omega

/-- The bytes of a number read from bytes are those bytes. -/
theorem ofNatLE_toNatLE (bytes : Bytes) : ofNatLE bytes.length (toNatLE bytes) = bytes := by
  induction bytes with
  | nil => rfl
  | cons byte rest ih =>
    have hlow : (byte.toNat + 256 * toNatLE rest) / 256 = toNatLE rest := by
      have := byte.toNat_lt
      omega
    have hbyte : UInt8.ofNat (byte.toNat + 256 * toNatLE rest) = byte := by
      apply UInt8.toNat_inj.mp
      have := byte.toNat_lt
      simp only [UInt8.toNat_ofNat']
      omega
    simp only [List.length_cons, toNatLE, ofNatLE, hlow, ih, hbyte]

theorem toNatLE_lt (bytes : Bytes) : toNatLE bytes < Nat.pow 256 bytes.length := by
  induction bytes with
  | nil => simp [toNatLE]
  | cons byte rest ih =>
    have := byte.toNat_lt
    simp only [toNatLE, List.length_cons, Nat.pow_eq, Nat.pow_succ] at ih ⊢
    omega

end Bytes

end TransferLoad
