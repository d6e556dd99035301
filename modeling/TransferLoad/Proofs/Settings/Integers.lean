import TransferLoad.Proofs.Decimal.Reading
import TransferLoad.Proofs.Decimal.Rounding
import TransferLoad.Proofs.Settings.Load

/-!
# Integers from the environment

A numeral in a variable is read as a whole number with a sign of 64 bits, and where it is too large for that
as a double. So a setting of 64 bits takes its number over below 2^63, and above only what a double leaves of
it. A setting of 128 bits cannot be set at all: whatever is in its variable, nothing is loaded.
-/

namespace TransferLoad

open SettingTree Text

namespace Environment

/-- A text of digits is taken for a number. -/
theorem readValue_of_digits {s : String} (hne : s.toList ≠ []) (hdigits : AllDigits s.toList) :
    readValue s =
      if digitsValue s.toList < 2 ^ 63 then .integer (digitsValue s.toList)
      else .real (Decimal.ofDecimal (digitsValue s.toList) 0) := by
  have hword : ∀ word : String, 'e' ∈ word.toList → lowercase s ≠ word := by
    rintro word hletter rfl
    rw [lowercase_of_digits hdigits] at hletter
    cases hdigits 'e' hletter
  have htrue : lowercase s ≠ trueWord := hword _ (by decide)
  have hfalse : lowercase s ≠ falseWord := hword _ (by decide)
  simp only [readValue, htrue, hfalse, if_false, readInt64_of_digits hne hdigits,
    Decimal.readFloat?_of_digits hne hdigits]
  split_ifs <;> rfl

end Environment

namespace Settings

open Environment

variable {environment : Variables}

/-- With something in the variable of an amount nothing is loaded. -/
theorem load_of_only_amount {k : Setting .amount} {s : String} (honly : Only environment k s) (files : FileTree) :
    load files none environment = .error (.config (.other "u128 is not supported")) := by
  have hfile : files.HasSettings none [] := rfl
  have hlayer : layer (layer [] []) (entries environment) = _ :=
    (congrArg (layer []) honly.entries).trans (putPath_path [] k (some sourceName) (readValue s))
  rw [load_of_hasSettings hfile, hlayer]
  cases k with
  | run k =>
    cases k <;>
      simp [Setting.place, RunSetting.name, put, asTable, SettingTree.nothing, Settings.ofTree, readGroup,
        readEntries, Settings.members, member, RunSettings.members, readAmount, under, Except.mapError, Except.map]
  | accounts k => cases k
  | funding k =>
    cases k <;>
      simp [Setting.place, FundingSetting.name, put, asTable, SettingTree.nothing, Settings.ofTree, readGroup,
        readEntries, Settings.members, member, FundingSettings.members, readAmount, under, Except.mapError, Except.map]
  | log k => cases k

/-- The number of 64 bits that is loaded for a number in the environment: from 2^63 on, the number that the
nearest double leaves, a multiple of 2048 or the largest number. -/
def loadedWord (n : UInt64) : UInt64 :=
  if n.toNat < 2 ^ 63 then n
  else UInt64.ofNat (min (2048 * Decimal.Fraction.roundHalfEven ⟨n.toNat, 2048⟩) maxWord)

theorem reads_numeral (n : UInt64) : SettingKind.word.Reads (readValue (toString n.toNat)) (loadedWord n) := by
  rw [readValue_of_digits (toList_toString_ne_nil _) (allDigits_toString _), digitsValue_toString, loadedWord]
  have hn := n.toNat_lt
  split_ifs with hsmall
  · have hword : SettingKind.word ≠ .amount := nofun
    exact SettingKind.reads_scalar hword n
  · rw [Decimal.ofDecimal_nat (hn.trans (by norm_num))]
    intro source
    change Except.ok (UInt64.ofNat (Decimal.saturatedNat (.nearest false ⟨n.toNat, 1⟩))) = _
    rw [Decimal.saturatedNat_nearest (Nat.le_of_not_lt hsmall) hn, maxWord]

theorem loadedWord_eq_iff (n : UInt64) :
    loadedWord n = n ↔ n.toNat < 2 ^ 63 ∨ 2048 ∣ n.toNat ∨ n.toNat = maxWord := by
  rw [loadedWord]
  split_ifs with hsmall
  · exact iff_of_true rfl (Or.inl hsmall)
  · have hn := n.toNat_lt
    have hlow := Nat.le_of_not_lt hsmall
    rw [or_iff_right hsmall, maxWord, ← Decimal.saturatedNat_nearest_eq_iff hlow hn,
      Decimal.saturatedNat_nearest hlow hn, ← UInt64.toNat_inj, UInt64.toNat_ofNat_of_lt']
    exact lt_of_le_of_lt (Nat.min_le_right _ _) (by decide)

/-- A numeral in the variable of a setting of 64 bits sets it to the number, if that is below 2^63, a multiple
of 2048 or the largest number, and to another number if it is not. No other setting is touched. A numeral in
the variable of a setting of 128 bits, whatever the number, has nothing loaded. -/
theorem load_integer (files : FileTree) :
    (∀ (k : Setting .word) (n : UInt64) (environment : Variables),
      Only environment k (toString n.toNat) →
        ∃ t, load files none environment = .ok t ∧ k.value t = some (loadedWord n) ∧
          (k.value t = some n ↔ n.toNat < 2 ^ 63 ∨ 2048 ∣ n.toNat ∨ n.toNat = maxWord) ∧
          ∀ {κ} (j : Setting κ), j.path ≠ k.path → j.value t = j.value {}) ∧
      ∀ (k : Setting .amount) (n : Amount) (environment : Variables),
        Only environment k (toString n.toNat) →
          load files none environment = .error (.config (.other "u128 is not supported")) := by
  refine ⟨fun k n environment honly => ?_, fun k n environment honly => load_of_only_amount honly files⟩
  obtain ⟨t, hload, hvalue, hothers⟩ := load_of_only honly (reads_numeral n) files
  refine ⟨t, hload, hvalue, ?_, hothers⟩
  rw [hvalue, Option.some_inj]
  exact loadedWord_eq_iff n

/-- An odd seed above 2^63 loses its last bit, and an amount of five is refused. -/
theorem load_integer_seed :
    (∃ t, load {} none [("HOME", "/root"), ("IPPAN_STRESS__RUN__SEED", "9223372036854775809")] = .ok t ∧
      t.run.seed = some 9223372036854775808 ∧ t.run.targetTps = 500) ∧
      load {} none [("IPPAN_STRESS__RUN__AMOUNT", "5")] = .error (.config (.other "u128 is not supported")) := by
  have hseed : Only [("HOME", "/root"), ("IPPAN_STRESS__RUN__SEED", "9223372036854775809")]
      (.run .seed) (toString (9223372036854775809 : UInt64).toNat) := by
    refine ⟨by decide +kernel, ?_⟩
    simp only [List.mem_cons, List.not_mem_nil, or_false]
    rintro entry (rfl | rfl) hpath
    · exact absurd (by decide +kernel) hpath
    · decide +kernel
  have hamount : Only [("IPPAN_STRESS__RUN__AMOUNT", "5")] (.run .amount) (toString (5 : Amount).toNat) := by
    refine ⟨by decide +kernel, ?_⟩
    simp only [List.mem_cons, List.not_mem_nil, or_false]
    rintro entry rfl -
    decide +kernel
  obtain ⟨t, hload, hvalue, -, hothers⟩ := (load_integer {}).1 _ _ _ hseed
  refine ⟨⟨t, hload, hvalue.trans (by decide +kernel), ?_⟩, (load_integer {}).2 _ _ _ hamount⟩
  exact Option.some.inj (hothers (.run .targetTps) (by decide +kernel))

end Settings

end TransferLoad
