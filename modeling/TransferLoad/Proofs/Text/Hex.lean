import TransferLoad.Proofs.Text.Utf8
import TransferLoad.Text.Hex

/-!
# Hexadecimal text comes back

Digits are written in lower case and read in either case. So the texts that are read as some bytes are
those that become the written digits when their own digits are put into lower case.
-/

namespace TransferLoad.Text.Hex

/-- The lower-case form of a digit; a byte that is no upper-case digit is left as it is. -/
def lower (byte : UInt8) : UInt8 :=
  if 65 ≤ byte.toNat ∧ byte.toNat ≤ 70 then UInt8.ofNat (byte.toNat + 32) else byte

theorem toNat_lower (byte : UInt8) :
    (lower byte).toNat = if 65 ≤ byte.toNat ∧ byte.toNat ≤ 70 then byte.toNat + 32 else byte.toNat := by
  unfold lower
  split
  · exact Utf8.toNat_byte (by omega)
  · rfl

/-! ### One digit -/

theorem toNat_digit {n : Nat} (hn : n < 16) : (digit n).toNat = if n < 10 then 48 + n else 87 + n := by
  have hall : ∀ n < 16, (digit n).toNat = if n < 10 then 48 + n else 87 + n := by decide
  exact hall n hn

theorem value?_eq_some_iff {byte : UInt8} {n : Nat} :
    value? byte = some n ↔ n < 16 ∧ (lower byte).toNat = (digit n).toNat := by
  have hvalue : value? byte = some n ↔ (48 ≤ byte.toNat ∧ byte.toNat ≤ 57 ∧ n = byte.toNat - 48) ∨
      (97 ≤ byte.toNat ∧ byte.toNat ≤ 102 ∧ n = byte.toNat - 87) ∨
      (65 ≤ byte.toNat ∧ byte.toNat ≤ 70 ∧ n = byte.toNat - 55) := by
    unfold value?
    dsimp only
    split_ifs <;> simp only [Option.some.injEq, false_iff] <;> omega
  rw [hvalue, toNat_lower]
  constructor
  · intro hdigit
    have hn : n < 16 := by omega
    rw [toNat_digit hn]
    refine ⟨hn, ?_⟩
    split_ifs <;> omega
  · rintro ⟨hn, hdigit⟩
    rw [toNat_digit hn] at hdigit
    split_ifs at hdigit <;> omega

theorem encodeChar_digit {n : Nat} (hn : n < 16) :
    Utf8.encodeChar (digit n) = [UInt8.ofNat (digit n).toNat] := by
  have hascii := toNat_digit hn
  unfold Utf8.encodeChar
  dsimp only
  rw [if_pos (by split at hascii <;> omega)]

theorem value?_eq_some_iff_encodeChar {byte : UInt8} {n : Nat} :
    value? byte = some n ↔ n < 16 ∧ [lower byte] = Utf8.encodeChar (digit n) := by
  rw [value?_eq_some_iff, and_congr_right_iff]
  intro hn
  have hdigit := toNat_digit hn
  rw [encodeChar_digit hn, List.singleton_inj, ← UInt8.toNat_inj,
    Utf8.toNat_byte (by split at hdigit <;> omega)]

/-! ### Digits are printed -/

theorem printable_digit (n : Nat) : 33 ≤ (digit n).toNat ∧ (digit n).toNat ≤ 126 := by
  have hall : ∀ c ∈ "0123456789abcdef".toList, 33 ≤ c.toNat ∧ c.toNat ≤ 126 := by simp
  unfold digit
  rw [List.getD_eq_getElem?_getD]
  cases hfound : "0123456789abcdef".toList[n]? with
  | none => decide
  | some c => exact hall c (List.mem_of_getElem? hfound)

theorem printable_encodeChars (bytes : Bytes) :
    ∀ c ∈ encodeChars bytes, 33 ≤ c.toNat ∧ c.toNat ≤ 126 := by
  induction bytes with
  | nil => exact fun _ hmem => nomatch hmem
  | cons byte rest ih =>
    rw [encodeChars, List.forall_mem_cons, List.forall_mem_cons]
    exact ⟨printable_digit _, printable_digit _, ih⟩

/-! ### Digit pairs -/

theorem encodeChars_encodeChars_cons (byte : UInt8) (rest : Bytes) :
    Utf8.encodeChars (encodeChars (byte :: rest)) =
      Utf8.encodeChar (digit (byte.toNat / 16)) ++
        (Utf8.encodeChar (digit (byte.toNat % 16)) ++ Utf8.encodeChars (encodeChars rest)) := rfl

theorem length_encodeChars_encodeChars (bytes : Bytes) :
    (Utf8.encodeChars (encodeChars bytes)).length = 2 * bytes.length := by
  induction bytes with
  | nil => rfl
  | cons byte rest ih =>
    have := byte.toNat_lt
    rw [encodeChars_encodeChars_cons, encodeChar_digit (by omega), encodeChar_digit (by omega)]
    simp only [List.length_append, List.length_cons, List.length_nil, ih]
    omega

theorem map_lower_encodeChars (bytes : Bytes) :
    (Utf8.encodeChars (encodeChars bytes)).map lower = Utf8.encodeChars (encodeChars bytes) := by
  have hdigit : ∀ n < 16, (Utf8.encodeChar (digit n)).map lower = Utf8.encodeChar (digit n) := by
    intro n hn
    have hvalue := toNat_digit hn
    rw [encodeChar_digit hn, List.map_singleton, List.singleton_inj, ← UInt8.toNat_inj, toNat_lower,
      Utf8.toNat_byte (by split at hvalue <;> omega)]
    split_ifs at hvalue ⊢ <;> omega
  induction bytes with
  | nil => rfl
  | cons byte rest ih =>
    have := byte.toNat_lt
    rw [encodeChars_encodeChars_cons, List.map_append, List.map_append, hdigit _ (by omega),
      hdigit _ (by omega), ih]

/-- Two bytes that stand, but for case, where the digits of some bytes begin are the digits of the first
of them. -/
theorem map_lower_pair_eq_iff {high low : UInt8} {rest bytes : Bytes} :
    (high :: low :: rest).map lower = Utf8.encodeChars (encodeChars bytes) ↔
      ∃ h l tail, value? high = some h ∧ value? low = some l ∧
        rest.map lower = Utf8.encodeChars (encodeChars tail) ∧ bytes = UInt8.ofNat (16 * h + l) :: tail := by
  have hsplit : (high :: low :: rest).map lower = [lower high] ++ ([lower low] ++ rest.map lower) := rfl
  constructor
  · intro heq
    cases bytes with
    | nil => cases heq
    | cons byte tail =>
      have hbyte := byte.toNat_lt
      have hhigh := encodeChar_digit (n := byte.toNat / 16) (by omega)
      have hlow := encodeChar_digit (n := byte.toNat % 16) (by omega)
      rw [hsplit, encodeChars_encodeChars_cons] at heq
      obtain ⟨hfirst, heq⟩ := List.append_inj heq (by rw [hhigh]; rfl)
      obtain ⟨hsecond, htail⟩ := List.append_inj heq (by rw [hlow]; rfl)
      refine ⟨byte.toNat / 16, byte.toNat % 16, tail,
        value?_eq_some_iff_encodeChar.mpr ⟨by omega, hfirst⟩,
        value?_eq_some_iff_encodeChar.mpr ⟨by omega, hsecond⟩, htail, ?_⟩
      rw [Utf8.ofNat_eq_of_toNat (b := byte) (by omega)]
  · rintro ⟨h, l, tail, hhigh, hlow, htail, rfl⟩
    obtain ⟨hh, hhigh⟩ := value?_eq_some_iff_encodeChar.mp hhigh
    obtain ⟨hl, hlow⟩ := value?_eq_some_iff_encodeChar.mp hlow
    rw [hsplit, encodeChars_encodeChars_cons, Utf8.toNat_byte (by omega), hhigh, hlow, htail]
    congr 4 <;> omega

/-- Digit pairs are read as the bytes whose digits they are, but for case. -/
theorem decodePairs_eq_ok_iff {position : Nat} {text bytes : Bytes} :
    decodePairs position text = .ok bytes ↔
      text.map lower = Utf8.encodeChars (encodeChars bytes) := by
  induction position, text using decodePairs.induct generalizing bytes with
  | case1 position =>
    cases bytes with
    | nil => exact iff_of_true rfl rfl
    | cons byte tail =>
      refine iff_of_false nofun fun heq => ?_
      have hlength := congrArg List.length heq
      rw [length_encodeChars_encodeChars] at hlength
      simp at hlength
  | case2 position head =>
    refine iff_of_false nofun fun heq => ?_
    have hlength := congrArg List.length heq
    rw [length_encodeChars_encodeChars, List.length_map, List.length_singleton] at hlength
    omega
  | case3 position high low rest hhigh =>
    rw [map_lower_pair_eq_iff]
    refine iff_of_false ?_ ?_
    · rw [decodePairs, hhigh]
      nofun
    · rintro ⟨h, l, tail, hdigit, -⟩
      rw [hhigh] at hdigit
      cases hdigit
  | case4 position high low rest h hhigh hlow =>
    rw [map_lower_pair_eq_iff]
    refine iff_of_false ?_ ?_
    · rw [decodePairs, hhigh, hlow]
      nofun
    · rintro ⟨h, l, tail, -, hdigit, -⟩
      rw [hlow] at hdigit
      cases hdigit
  | case5 position high low rest h hhigh l hlow ih =>
    rw [map_lower_pair_eq_iff, decodePairs, hhigh, hlow]
    dsimp only
    constructor
    · intro hread
      cases htail : decodePairs (position + 2) rest with
      | error cause =>
        rw [htail] at hread
        cases hread
      | ok tail =>
        rw [htail] at hread
        cases hread
        exact ⟨h, l, tail, rfl, rfl, ih.mp htail, rfl⟩
    · rintro ⟨h', l', tail, hh, hl, htail, rfl⟩
      cases hh
      cases hl
      rw [ih.mpr htail]
      rfl

theorem decode_eq_ok_iff {text bytes : Bytes} :
    decode text = .ok bytes ↔ text.map lower = Utf8.encodeChars (encodeChars bytes) := by
  unfold decode
  split
  · rename_i hodd
    refine iff_of_false nofun fun heq => ?_
    have hlength := congrArg List.length heq
    rw [length_encodeChars_encodeChars, List.length_map] at hlength
    omega
  · exact decodePairs_eq_ok_iff

end TransferLoad.Text.Hex
