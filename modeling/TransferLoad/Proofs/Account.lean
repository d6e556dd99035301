import TransferLoad.Account
import TransferLoad.Proofs.Text.Blank
import TransferLoad.Proofs.Text.Hex

/-!
# Accounts from secrets

A secret is read from its digits in either case. A text in which nothing is cut off gives the account of a
secret exactly if it is read as the secret's bytes.
-/

namespace TransferLoad

namespace Text.Hex

/-! ### Digits in either case -/

theorem exists_digit_of_mem {bytes : Bytes} {c : Char} (hc : c ∈ encodeChars bytes) : ∃ n < 16, c = digit n := by
  induction bytes with
  | nil => exact nomatch hc
  | cons byte rest ih =>
    have hbyte := byte.toNat_lt
    rcases List.mem_cons.mp hc with rfl | hc
    · exact ⟨_, by omega, rfl⟩
    · rcases List.mem_cons.mp hc with rfl | hc
      · exact ⟨_, by omega, rfl⟩
      · exact ih hc

/-- The character of a digit is the digit itself, or its letter in upper case. -/
theorem toNat_of_toLower {c : Char} {n : Nat} (hn : n < 16) (hc : c.toLower = digit n) :
    c.toNat = (digit n).toNat ∨ 10 ≤ n ∧ c.toNat = 55 + n := by
  by_cases hupper : c.isUpper = true
  · have hrange : 65 ≤ c.toNat ∧ c.toNat ≤ 90 := by
      simpa [Char.isUpper, UInt32.le_iff_toNat_le, ← Char.toNat_val] using hupper
    have hdigit := toNat_digit hn
    rw [← hc, Char.toLower_eq_of_isUpper hupper, Utf8.toNat_ofNat_of_valid (by omega)] at hdigit
    right
    split at hdigit <;> omega
  · rw [Char.toLower_eq_of_not_isUpper hupper] at hc
    exact Or.inl (congrArg Char.toNat hc)

/-- Digits in either case, as bytes and in lower case. -/
theorem map_lower_encodeChar {c : Char} {n : Nat} (hn : n < 16) (hc : c.toLower = digit n) :
    (Utf8.encodeChar c).map lower = Utf8.encodeChar (digit n) := by
  have hdigit := toNat_digit hn
  have hnumber := toNat_of_toLower hn hc
  have hascii : c.toNat < 0x80 := by
    split at hdigit <;> omega
  have hencode : Utf8.encodeChar c = [UInt8.ofNat c.toNat] := by
    unfold Utf8.encodeChar
    exact if_pos hascii
  rw [hencode, encodeChar_digit hn, List.map_singleton, List.singleton_inj, ← UInt8.toNat_inj, toNat_lower,
    Utf8.toNat_byte (by omega), Utf8.toNat_byte (by split at hdigit <;> omega)]
  split at hdigit <;> split <;> omega

/-- The digits of some bytes in either case are read as the bytes. -/
theorem decode_of_toLower {text : String} {bytes : Bytes}
    (htext : text.toList.map Char.toLower = encodeChars bytes) : decode (Utf8.encode text) = .ok bytes := by
  have hall : ∀ chars : List Char, (∀ c ∈ chars, ∃ n < 16, c.toLower = digit n) →
      (Utf8.encodeChars chars).map lower = Utf8.encodeChars (chars.map Char.toLower) := by
    intro chars hchars
    induction chars with
    | nil => rfl
    | cons c rest ih =>
      rw [List.forall_mem_cons] at hchars
      obtain ⟨⟨n, hn, hc⟩, hrest⟩ := hchars
      rw [List.map_cons, Utf8.encodeChars, List.flatMap_cons, List.map_append, map_lower_encodeChar hn hc,
        ← Utf8.encodeChars, ih hrest, ← hc]
      rfl
  rw [decode_eq_ok_iff, Utf8.encode, hall, htext]
  intro c hc
  exact exists_digit_of_mem (htext ▸ List.mem_map_of_mem hc)

end Text.Hex

namespace Account

open Text

theorem ofSeed_injective : Function.Injective ofSeed :=
  fun _ _ heq => congrArg (fun account => account.key.seed) heq

theorem dropRepeated_eq_self {chars : List Char} (hletter : 'x' ∉ chars) :
    dropRepeated ['0', 'x'] chars = chars := by
  rw [dropRepeated, dif_neg]
  rintro ⟨-, hstart⟩
  exact hletter ((List.isPrefixOf_iff_prefix.mp hstart).subset (by simp))

/-- A text without blanks and without the letter of the prefix gives the account of the secret that it is
read as. -/
theorem ofSecretText_eq_ok_iff {text : String} {secret : Bytes}
    (hblank : ∀ c ∈ text.toList, isBlank c = false) (hletter : 'x' ∉ text.toList) :
    ofSecretText text = .ok (ofSeed secret) ↔
      Hex.decode (Utf8.encode text) = .ok secret ∧ secret.length = 32 := by
  have htrimmed : Trimmed text.toList :=
    ⟨fun c hc => hblank c (List.mem_of_mem_head? hc), fun c hc => hblank c (List.mem_of_mem_getLast? hc)⟩
  rw [ofSecretText, secretOfText, htrimmed.trim_eq, dropRepeated_eq_self hletter, ← Utf8.encode]
  cases Hex.decode (Utf8.encode text) with
  | error cause => simp
  | ok found =>
    dsimp only
    split_ifs with hlength
    · simp only [Except.ok.injEq, ofSeed_injective.eq_iff]
      exact ⟨fun heq => ⟨heq, heq ▸ hlength⟩, And.left⟩
    · simp only [Except.ok.injEq, false_iff]
      rintro ⟨rfl, hsecret⟩
      exact hlength hsecret

end Account

end TransferLoad
