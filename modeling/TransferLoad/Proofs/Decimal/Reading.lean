import TransferLoad.Decimal.Reading
import TransferLoad.Proofs.Text.Numeral

/-!
# Texts that are doubles

A text without a sign or a point that is read as a double, and is too long for a word, has one of two forms:
digits alone, or digits with a power of ten behind them.
-/

namespace TransferLoad.Decimal

open Text

variable {chars rest : List Char} {c : Char} {x : Binary}

/-! ### Words -/

/-- The words that are read as doubles, in lower case. -/
def words : List (List Char) := ["inf".toList, "infinity".toList, "nan".toList]

theorem map_toLower_mem_words (hread : readWord? chars = some x) :
    chars.map Char.toLower ∈ words := by
  unfold readWord? at hread
  split at hread
  · rename_i hword
    exact List.mem_of_elem_eq_true (by rw [← String.toList_ofList (l := chars.map Char.toLower), hword]; decide)
  · rename_i hword
    exact List.mem_of_elem_eq_true (by rw [← String.toList_ofList (l := chars.map Char.toLower), hword]; decide)
  · rename_i hword
    exact List.mem_of_elem_eq_true (by rw [← String.toList_ofList (l := chars.map Char.toLower), hword]; decide)
  · cases hread

/-- A word does not begin with a digit. -/
theorem readWord?_of_digit (hc : c.isDigit = true) : readWord? (c :: rest) = none := by
  refine Option.eq_none_iff_forall_ne_some.mpr fun x hread => ?_
  have hword := map_toLower_mem_words hread
  rw [List.map_cons, toLower_of_isDigit hc] at hword
  have hletter : ∀ word ∈ words, word.head?.any Char.isDigit = false := by decide
  exact absurd hc (Bool.eq_false_iff.mp (hletter _ hword))

/-- No word is longer than eight letters. -/
theorem readWord?_of_long (hlong : 8 < chars.length) : readWord? chars = none := by
  refine Option.eq_none_iff_forall_ne_some.mpr fun x hread => ?_
  have hshort : ∀ word ∈ words, word.length ≤ 8 := by decide
  have := hshort _ (map_toLower_mem_words hread)
  rw [List.length_map] at this
  omega

/-! ### Digits -/

theorem leadingDigits_of_digits (hdigits : AllDigits chars) :
    leadingDigits chars = (digitsValue chars, chars.length, []) := by
  have htake : chars.takeWhile Char.isDigit = chars := List.takeWhile_eq_self_iff.mpr hdigits
  have hdrop : chars.dropWhile Char.isDigit = [] := List.dropWhile_eq_nil_iff.mpr hdigits
  rw [leadingDigits, htake, hdrop]
  rfl

/-- What stands behind the digits at the front stays. -/
theorem leadingDigits_append (hdigits : AllDigits chars) (hc : c.isDigit = false) :
    leadingDigits (chars ++ c :: rest) = (digitsValue chars, chars.length, c :: rest) := by
  have htake : (chars ++ c :: rest).takeWhile Char.isDigit = chars := by
    rw [List.takeWhile_append_of_pos hdigits, List.takeWhile_cons_of_neg (by simp [hc]), List.append_nil]
  have hdrop : (chars ++ c :: rest).dropWhile Char.isDigit = c :: rest := by
    rw [List.dropWhile_append_of_pos hdigits, List.dropWhile_cons_of_neg (by simp [hc])]
  rw [leadingDigits, htake, hdrop]
  rfl

/-- A text is digits, or digits with something else behind them. -/
theorem digits_or_append (chars : List Char) :
    AllDigits chars ∨ ∃ whole c rest, chars = whole ++ c :: rest ∧ AllDigits whole ∧ c.isDigit = false := by
  have hwhole : AllDigits (chars.takeWhile Char.isDigit) := fun c hc => List.mem_takeWhile_imp hc
  have hsplit := List.takeWhile_append_dropWhile (p := Char.isDigit) (l := chars)
  cases hrest : chars.dropWhile Char.isDigit with
  | nil =>
    rw [hrest, List.append_nil] at hsplit
    exact Or.inl (hsplit ▸ hwhole)
  | cons c rest =>
    rw [hrest] at hsplit
    have hc := List.head?_dropWhile_not Char.isDigit chars
    rw [hrest] at hc
    exact Or.inr ⟨_, c, rest, hsplit.symm, hwhole, by simpa using hc⟩

/-- A text of digits is the double nearest to its value. -/
theorem readFloat?_of_digits (hne : chars ≠ []) (hdigits : AllDigits chars) :
    readFloat? chars = some (ofDecimal (digitsValue chars) 0) := by
  cases chars with
  | nil => exact absurd rfl hne
  | cons c rest =>
    obtain ⟨hplus, hminus⟩ := unsigned_of_digits hdigits
    have hunsigned : readUnsigned? (c :: rest) = some (ofDecimal (digitsValue (c :: rest)) 0) := by
      simp [readUnsigned?, leadingDigits_of_digits hdigits]
    rw [readFloat?] <;> simp [hplus, hminus, readWord?_of_digit (hdigits c List.mem_cons_self), hunsigned]

/-- A number that is not out of range by far. -/
theorem ofDecimal_nat {n : Nat} (hn : n < 10 ^ 100) : ofDecimal n 0 = .nearest false ⟨n, 1⟩ := by
  have hlength : (Nat.toDigits 10 n).length ≤ 100 := (Nat.length_toDigits_le_iff (by decide) (by decide)).mpr hn
  simp only [ofDecimal]
  split_ifs with hzero hlarge hneg
  · obtain rfl : n = 0 := hzero.resolve_right (by omega)
    rfl
  · omega
  · omega
  · simp

/-! ### Powers of ten -/

/-- Digits, the letter of a power of ten, and digits again. -/
def Exponential (chars : List Char) : Prop :=
  ∃ whole c power, chars = whole ++ c :: power ∧ (c = 'e' ∨ c = 'E') ∧
    (whole ≠ [] ∧ AllDigits whole) ∧ power ≠ [] ∧ AllDigits power

theorem not_allDigits_of_exponential (hexponential : Exponential chars) : ¬AllDigits chars := by
  obtain ⟨whole, c, power, rfl, hc, -⟩ := hexponential
  intro hdigits
  have hletter := hdigits c (by simp)
  rcases hc with rfl | rfl <;> cases hletter

/-- A text does not begin with a sign. -/
def Unsigned (chars : List Char) : Prop := ∀ rest, chars ≠ '+' :: rest ∧ chars ≠ '-' :: rest

theorem unsigned_of_not_mem (hplus : '+' ∉ chars) (hminus : '-' ∉ chars) : Unsigned chars := by
  intro rest
  constructor
  · rintro rfl
    exact hplus List.mem_cons_self
  · rintro rfl
    exact hminus List.mem_cons_self

theorem unsigned_of_allDigits (hdigits : AllDigits chars) : Unsigned chars := by
  refine unsigned_of_not_mem (fun hmem => ?_) fun hmem => ?_
  · cases hdigits _ hmem
  · cases hdigits _ hmem

/-- Behind the letter of a power of ten, without a sign, stand digits. -/
theorem exponentPart?_ne_none_iff (hunsigned : Unsigned chars) :
    exponentPart? chars ≠ none ↔ chars ≠ [] ∧ AllDigits chars := by
  unfold exponentPart?
  split
  rename_i hsign
  split at hsign
  · exact absurd rfl (hunsigned _).2
  · exact absurd rfl (hunsigned _).1
  · cases hsign
    rcases digits_or_append chars with hdigits | ⟨whole, c, rest, rfl, hwhole, hc⟩
    · rw [leadingDigits_of_digits hdigits]
      cases chars with
      | nil => simp
      | cons c rest => simp [hdigits]
    · rw [leadingDigits_append hwhole hc]
      have hnot : ¬AllDigits (whole ++ c :: rest) := fun hall => by
        rw [hall c (by simp)] at hc
        cases hc
      refine iff_of_false (fun hsome => hsome ?_) fun hall => hnot hall.2
      cases whole <;> rfl

theorem readFloat?_of_unsigned (hunsigned : Unsigned chars) :
    readFloat? chars = (readWord? chars).or (readUnsigned? chars) := by
  unfold readFloat?
  dsimp only
  split
  · exact absurd rfl (hunsigned _).2
  · exact absurd rfl (hunsigned _).1
  · rfl

/-- Without a point in front of it, something behind the digits has to be a power of ten. -/
theorem readUnsigned?_append (hdigits : AllDigits chars) (hc : c.isDigit = false) (hpoint : c ≠ '.')
    (hunsigned : Unsigned rest) :
    readUnsigned? (chars ++ c :: rest) ≠ none ↔
      chars ≠ [] ∧ (c = 'e' ∨ c = 'E') ∧ rest ≠ [] ∧ AllDigits rest := by
  have hread : readUnsigned? (chars ++ c :: rest) =
      if chars.length = 0 then none
      else (if c = 'e' ∨ c = 'E' then exponentPart? rest else none).map
        fun power => ofDecimal (digitsValue chars * Nat.pow 10 0 + 0) (power - (0 : Nat)) := by
    unfold readUnsigned?
    rw [leadingDigits_append hdigits hc]
    dsimp only
    split
    · rename_i heq
      cases heq
      exact absurd rfl hpoint
    · rfl
  rw [hread, ← exponentPart?_ne_none_iff hunsigned]
  by_cases hempty : chars = []
  · simp [hempty]
  · by_cases hletter : c = 'e' ∨ c = 'E'
    · simp only [List.length_eq_zero_iff, hempty, hletter, if_true, if_false, ne_eq, Option.map_eq_none_iff,
        not_false_eq_true, true_and]
    · simp [hempty, hletter]

/-- Digits with a power of ten are read as a double. -/
theorem readFloat?_of_exponential (hexponential : Exponential chars) : readFloat? chars ≠ none := by
  obtain ⟨whole, c, power, rfl, hc, ⟨hne, hwhole⟩, hpower, hdigits⟩ := hexponential
  have hletter : c.isDigit = false ∧ c ≠ '.' := by
    rcases hc with rfl | rfl <;> decide
  have hread := (readUnsigned?_append hwhole hletter.1 hletter.2 (unsigned_of_allDigits hdigits)).mpr
    ⟨hne, hc, hpower, hdigits⟩
  have hunsigned : Unsigned (whole ++ c :: power) := by
    cases whole with
    | nil => exact absurd rfl hne
    | cons d rest =>
      obtain ⟨hplus, hminus⟩ := unsigned_of_digits hwhole
      exact fun rest => ⟨fun heq => hplus (List.cons.inj heq).1, fun heq => hminus (List.cons.inj heq).1⟩
  rw [readFloat?_of_unsigned hunsigned]
  exact fun hnone => hread (Option.or_eq_none_iff.mp hnone).2

/-- What is read as a double, without a sign, a point or a word. -/
theorem numeral_of_readFloat? (hlong : 8 < chars.length) (hplus : '+' ∉ chars) (hminus : '-' ∉ chars)
    (hpoint : '.' ∉ chars) (hread : readFloat? chars ≠ none) : AllDigits chars ∨ Exponential chars := by
  rw [readFloat?_of_unsigned (unsigned_of_not_mem hplus hminus), readWord?_of_long hlong, Option.none_or] at hread
  rcases digits_or_append chars with hdigits | ⟨whole, c, rest, rfl, hwhole, hc⟩
  · exact Or.inl hdigits
  · simp only [List.mem_append, List.mem_cons, not_or] at hplus hminus hpoint
    have hunsigned := unsigned_of_not_mem hplus.2.2 hminus.2.2
    obtain ⟨hne, hletter, hpower⟩ := (readUnsigned?_append hwhole hc (Ne.symm hpoint.2.1) hunsigned).mp hread
    exact Or.inr ⟨whole, c, rest, rfl, hletter, ⟨hne, hwhole⟩, hpower⟩

end TransferLoad.Decimal
