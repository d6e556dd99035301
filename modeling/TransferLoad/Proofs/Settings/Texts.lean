import TransferLoad.Proofs.Account
import TransferLoad.Proofs.Decimal.Reading
import TransferLoad.Proofs.Decimal.Shortest
import TransferLoad.Proofs.Settings.Integers

/-!
# Texts from the environment

A text in a variable that is a word for a truth value or a number is taken for one, and what a setting of text
gets is that value as a text again. Any other text comes through as it is. The digits of a secret are such a
text unless they are decimal digits alone, or have a single `e` between decimal digits. With the `e` they never
come through, and decimal digits alone only with zeros from the nineteenth place on.
-/

namespace TransferLoad

open Text

/-! ### What is left of a number -/

namespace Decimal

variable {text : String} {c : Char}

theorem Plain.range {chars : List Char} (hplain : Plain chars) (hc : c ∈ chars) :
    45 ≤ c.toNat ∧ c.toNat ≤ 57 ∨ 78 ≤ c.toNat ∧ c.toNat ≤ 110 := by
  rcases hplain c hc with hdigit | hmark
  · have := isDigit_iff.mp hdigit
    omega
  · have hmarks : (marks.all fun c => 45 ≤ c.toNat && c.toNat ≤ 57 || 78 ≤ c.toNat && c.toNat ≤ 110) = true := by
      decide
    simpa using List.all_eq_true.mp hmarks c hmark

theorem Plain.not_blank (hplain : Plain text.toList) : ∀ c ∈ text.toList, isBlank c = false := by
  intro c hc
  have := hplain.range hc
  exact isBlank_of_printable (by omega)

theorem Plain.not_prefix (hplain : Plain text.toList) : 'x' ∉ text.toList := by
  intro hmem
  have := hplain.range hmem
  revert this
  decide

/-- Without upper case there is one text for some bytes. -/
theorem Plain.decode_iff {bytes : Bytes} (hplain : Plain text.toList) :
    Hex.decode (Utf8.encode text) = .ok bytes ↔ text.toList = Hex.encodeChars bytes := by
  have hlower : (Utf8.encode text).map Hex.lower = Utf8.encode text := by
    refine (List.map_congr_left fun byte hbyte => ?_).trans (List.map_id _)
    obtain ⟨c, hc, hmem⟩ := List.mem_flatMap.mp hbyte
    have hrange := hplain.range hc
    obtain rfl : byte = UInt8.ofNat c.toNat := by
      unfold Utf8.encodeChar at hmem
      dsimp only at hmem
      rw [if_pos (by omega)] at hmem
      exact List.mem_singleton.mp hmem
    rw [← UInt8.toNat_inj, Hex.toNat_lower, Utf8.toNat_byte (by omega), if_neg (by omega)]
    exact (Utf8.toNat_byte (by omega)).symm
  rw [Hex.decode_eq_ok_iff, hlower]
  constructor
  · intro hencode
    have hsame : Utf8.encode text = Utf8.encode (String.ofList (Hex.encodeChars bytes)) := by
      rw [hencode, Utf8.encode, String.toList_ofList]
    have hdecode := Utf8.decode_encode text
    rw [hsame, Utf8.decode_encode, Except.ok.injEq] at hdecode
    rw [← hdecode, String.toList_ofList]
  · intro hsame
    rw [Utf8.encode, hsame]

end Decimal

namespace Environment

variable {s : String}

/-- What a text in the environment is as a text again, once it has been taken for a value. -/
def rendered (s : String) : String :=
  match readValue s with
  | .nothing => ""
  | .boolean b => toString b
  | .integer n => toString n
  | .real x => Decimal.toText x
  | .text s => s

/-- A text that is neither a word for a truth value nor a number. -/
structure Literal (s : String) : Prop where
  noTruth : lowercase s ≠ trueWord ∧ lowercase s ≠ falseWord
  noInteger : ∀ n, readInt64 s.toList ≠ .ok n
  noReal : Decimal.readFloat? s.toList = none

theorem readValue_of_literal (hliteral : Literal s) : readValue s = .text s := by
  simp only [readValue, hliteral.noTruth.1, hliteral.noTruth.2, if_false, hliteral.noReal]
  cases hread : readInt64 s.toList with
  | ok n => exact absurd hread (hliteral.noInteger n)
  | error cause => rfl

theorem rendered_of_literal (hliteral : Literal s) : rendered s = s := by
  rw [rendered, readValue_of_literal hliteral]

theorem readValue_ne_nothing (s : String) : readValue s ≠ .nothing := by
  unfold readValue
  dsimp only
  split_ifs
  · nofun
  · nofun
  · split
    · nofun
    · split <;> nofun

theorem reads_rendered (s : String) : SettingKind.text.Reads (readValue s) (rendered s) := by
  intro source
  rw [rendered]
  cases hvalue : readValue s with
  | nothing => exact absurd hvalue (readValue_ne_nothing s)
  | boolean b => rfl
  | integer n => rfl
  | real x => rfl
  | text s => rfl

/-! ### The digits of a secret -/

section Secret

variable {h : String} {secret : Bytes}

/-- The characters of hexadecimal digits in either case. -/
theorem digit_range (hdigits : h.toList.map Char.toLower = Hex.encodeChars secret) {c : Char} (hc : c ∈ h.toList) :
    48 ≤ c.toNat ∧ c.toNat ≤ 57 ∨ 65 ≤ c.toNat ∧ c.toNat ≤ 70 ∨ 97 ≤ c.toNat ∧ c.toNat ≤ 102 := by
  obtain ⟨n, hn, hdigit⟩ := Hex.exists_digit_of_mem (hdigits ▸ List.mem_map_of_mem hc)
  have hnumber := Hex.toNat_digit hn
  rcases Hex.toNat_of_toLower hn hdigit with hsame | ⟨hletter, hupper⟩
  · split at hnumber <;> omega
  · omega

theorem not_mem_of_digits (hdigits : h.toList.map Char.toLower = Hex.encodeChars secret) {c : Char}
    (hc : c.toNat < 48 ∨ 102 < c.toNat) : c ∉ h.toList := by
  intro hmem
  have := digit_range hdigits hmem
  omega

theorem length_of_digits (hdigits : h.toList.map Char.toLower = Hex.encodeChars secret)
    (hlength : secret.length = 32) : h.toList.length = 64 := by
  have := congrArg List.length hdigits
  rw [List.length_map, Hex.length_encodeChars] at this
  omega

/-- So many digits are no word. -/
theorem lowercase_ne_of_digits (hdigits : h.toList.map Char.toLower = Hex.encodeChars secret)
    (hlength : secret.length = 32) : lowercase h ≠ trueWord ∧ lowercase h ≠ falseWord := by
  have hlower : (lowercase h).toList.length = 64 := by
    have hascii : ∀ c ∈ h.toList, c.toNat < 128 := fun c hc => by
      have := digit_range hdigits hc
      omega
    rw [lowercase, String.toList_ofList, lowercaseAfter_of_ascii hascii, List.length_map,
      length_of_digits hdigits hlength]
  constructor <;> intro heq <;> rw [heq] at hlower <;> revert hlower <;> decide

theorem integer_of_digits (hdigits : h.toList.map Char.toLower = Hex.encodeChars secret) {n : Int}
    (hread : readInt64 h.toList = .ok n) : AllDigits h.toList := by
  have hplus : '+' ∉ h.toList := not_mem_of_digits hdigits (by decide)
  have hminus : '-' ∉ h.toList := not_mem_of_digits hdigits (by decide)
  cases hchars : h.toList with
  | nil => exact nofun
  | cons c rest =>
    rw [hchars] at hread hplus hminus
    exact digits_of_readInt64 (fun heq => hplus (heq ▸ List.mem_cons_self))
      (fun heq => hminus (heq ▸ List.mem_cons_self)) hread

/-- Digits that are no decimal numeral come through. -/
theorem literal_of_digits (hdigits : h.toList.map Char.toLower = Hex.encodeChars secret)
    (hlength : secret.length = 32) (hdecimal : ¬AllDigits h.toList)
    (hexponential : ¬Decimal.Exponential h.toList) : Literal h where
  noTruth := lowercase_ne_of_digits hdigits hlength
  noInteger n hread := hdecimal (integer_of_digits hdigits hread)
  noReal := by
    by_contra hread
    have hlong : 8 < h.toList.length := by
      rw [length_of_digits hdigits hlength]
      decide
    exact (Decimal.numeral_of_readFloat? hlong (not_mem_of_digits hdigits (by decide))
      (not_mem_of_digits hdigits (by decide)) (not_mem_of_digits hdigits (by decide)) hread).elim hdecimal hexponential

theorem rendered_of_decimal (hdecimal : AllDigits h.toList) (hne : h.toList ≠ []) :
    rendered h = if digitsValue h.toList < 2 ^ 63 then toString (digitsValue h.toList)
      else Decimal.toText (Decimal.ofDecimal (digitsValue h.toList) 0) := by
  rw [rendered, readValue_of_digits hne hdecimal]
  split_ifs <;> rfl

theorem rendered_of_exponential (hdigits : h.toList.map Char.toLower = Hex.encodeChars secret)
    (hlength : secret.length = 32) (hexponential : Decimal.Exponential h.toList) :
    ∃ x, rendered h = Decimal.toText x := by
  obtain ⟨htrue, hfalse⟩ := lowercase_ne_of_digits hdigits hlength
  obtain ⟨x, hx⟩ := Option.ne_none_iff_exists'.mp (Decimal.readFloat?_of_exponential hexponential)
  have hvalue : readValue h = .real x := by
    simp only [readValue, htrue, hfalse, if_false, hx]
    cases hread : readInt64 h.toList with
    | ok n => exact absurd (integer_of_digits hdigits hread) (Decimal.not_allDigits_of_exponential hexponential)
    | error cause => rfl
  exact ⟨x, by rw [rendered, hvalue]⟩

/-- What becomes of a decimal numeral has no letters of digits. -/
theorem plain_rendered (hdigits : h.toList.map Char.toLower = Hex.encodeChars secret)
    (hlength : secret.length = 32) (hnumeral : AllDigits h.toList ∨ Decimal.Exponential h.toList) :
    Decimal.Plain (rendered h).toList := by
  rcases hnumeral with hdecimal | hexponential
  · have hne : h.toList ≠ [] := by
      rw [← List.length_pos_iff, length_of_digits hdigits hlength]
      decide
    rw [rendered_of_decimal hdecimal hne]
    split
    · exact Decimal.plain_of_digits (allDigits_toString _)
    · exact Decimal.plain_toText _
  · obtain ⟨x, hx⟩ := rendered_of_exponential hdigits hlength hexponential
    rw [hx]
    exact Decimal.plain_toText x

/-- With a power of ten the digits do not come through. -/
theorem rendered_ne_of_exponential (hdigits : h.toList.map Char.toLower = Hex.encodeChars secret)
    (hlength : secret.length = 32) (hexponential : Decimal.Exponential h.toList) : rendered h ≠ h := by
  intro hsame
  have hplain := plain_rendered hdigits hlength (Or.inr hexponential)
  rw [hsame] at hplain
  obtain ⟨whole, c, power, hchars, hc, -⟩ := hexponential
  have hmem : c ∈ h.toList := hchars ▸ List.mem_append_right _ List.mem_cons_self
  rcases hplain c hmem with hdigit | hmark
  · rcases hc with rfl | rfl <;> cases hdigit
  · rcases hc with rfl | rfl <;> exact absurd hmark (by decide)

/-- The digits of a secret give the secret's account if they come through, and if they do not they give no
account or another one. -/
theorem ofSecretText_rendered_iff (hdigits : h.toList.map Char.toLower = Hex.encodeChars secret)
    (hlength : secret.length = 32) :
    Account.ofSecretText (rendered h) = .ok (Account.ofSeed secret) ↔ rendered h = h := by
  constructor
  · intro haccount
    by_cases hnumeral : AllDigits h.toList ∨ Decimal.Exponential h.toList
    · have hplain := plain_rendered hdigits hlength hnumeral
      have hdecode := ((Account.ofSecretText_eq_ok_iff hplain.not_blank hplain.not_prefix).mp haccount).1
      have hsame : (rendered h).toList = h.toList.map Char.toLower :=
        (hplain.decode_iff.mp hdecode).trans hdigits.symm
      rcases hnumeral with hdecimal | hexponential
      · rw [map_toLower_of_digits hdecimal] at hsame
        exact String.toList_inj.mp hsame
      · have hletter : 'e' ∈ (rendered h).toList := by
          rw [hsame]
          obtain ⟨whole, c, power, hchars, hc, -⟩ := hexponential
          rw [hchars, List.map_append, List.map_cons]
          rcases hc with rfl | rfl <;> simp
        rcases hplain 'e' hletter with hdigit | hmark
        · cases hdigit
        · exact absurd hmark (by decide)
    · rw [not_or] at hnumeral
      exact rendered_of_literal (literal_of_digits hdigits hlength hnumeral.1 hnumeral.2)
  · intro hsame
    rw [hsame, Account.ofSecretText_eq_ok_iff]
    · exact ⟨Hex.decode_of_toLower hdigits, hlength⟩
    · intro c hc
      have := digit_range hdigits hc
      exact isBlank_of_printable (by omega)
    · exact not_mem_of_digits hdigits (by decide)

/-- Of decimal digits only those come through that begin with no zero and have zeros behind the eighteenth
place. -/
theorem zeros_of_rendered (hdecimal : AllDigits h.toList) (hlength : h.toList.length = 64)
    (hsame : rendered h = h) : 10 ^ 63 ≤ digitsValue h.toList ∧ 10 ^ 46 ∣ digitsValue h.toList := by
  have hne : h.toList ≠ [] := by
    rw [← List.length_pos_iff, hlength]
    decide
  have hbound := digitsValue_lt hdecimal
  rw [hlength] at hbound
  have hlarge : h = toString (digitsValue h.toList) → 10 ^ 63 ≤ digitsValue h.toList := by
    intro hnumeral
    have hdigits := congrArg (fun text => text.toList.length) hnumeral
    rw [hlength, toList_toString] at hdigits
    by_contra hsmall
    have := (Nat.length_toDigits_le_iff (b := 10) (k := 63) (by decide) (by decide)).mpr (Nat.lt_of_not_le hsmall)
    omega
  rw [rendered_of_decimal hdecimal hne] at hsame
  split_ifs at hsame with hsmall
  · have := hlarge hsame.symm
    omega
  · rw [Decimal.ofDecimal_nat (hbound.trans (by norm_num))] at hsame
    have hzeros : ∀ k, 18 ≤ k → 10 ^ k ≤ digitsValue h.toList →
        ∃ digits zeros, k - 17 ≤ zeros ∧ h = toString (digits * 10 ^ zeros) ∧
          digitsValue h.toList = digits * 10 ^ zeros := by
      intro k hk hle
      obtain ⟨digits, zeros, hzeros, htext⟩ := Decimal.toText_nearest hk hle (hbound.trans (by norm_num))
      have hnumeral := hsame.symm.trans htext
      exact ⟨digits, zeros, hzeros, hnumeral, by rw [hnumeral, digitsValue_toString]⟩
    have hfirst : 10 ^ 63 ≤ digitsValue h.toList := by
      obtain ⟨digits, zeros, -, hnumeral, hvalue⟩ := hzeros 18 le_rfl (by omega)
      exact hlarge (hnumeral.trans (by rw [hvalue]))
    obtain ⟨digits, zeros, hle, -, hvalue⟩ := hzeros 63 (by decide) hfirst
    exact ⟨hfirst, hvalue ▸ Dvd.dvd.mul_left (Nat.pow_dvd_pow 10 hle) digits⟩

end Secret

end Environment

namespace Settings

open Environment

/-- A text in the variable of a setting of text sets it to what is left of the text, which is the text itself
unless that is a word for a truth value or a number. No other setting is touched. With the digits of a secret
in the variable for the funder's key, the key gives the secret's account exactly if the digits come through:
they do if they are no decimal numeral, they do not if they are one with a power of ten, and decimal digits
alone do so only with zeros behind the eighteenth place. -/
theorem load_text (files : FileTree) :
    (∀ (k : Setting .text) (s : String) (environment : Variables), Only environment k s →
      ∃ t, load files none environment = .ok t ∧ k.value t = some (rendered s) ∧
        (Literal s → k.value t = some s) ∧
        ∀ {κ} (j : Setting κ), j.path ≠ k.path → j.value t = j.value {}) ∧
      ∀ (h : String) (secret : Bytes) (environment : Variables),
        secret.length = 32 → h.toList.map Char.toLower = Hex.encodeChars secret →
          Only environment (.funding .funderKey) h →
            ∃ t key, load files none environment = .ok t ∧ t.funding.funderKey = some key ∧
              (Account.ofSecretText key = .ok (Account.ofSeed secret) ↔ key = h) ∧
              (¬AllDigits h.toList → ¬Decimal.Exponential h.toList → key = h) ∧
              (Decimal.Exponential h.toList → key ≠ h) ∧
              (AllDigits h.toList → key = h →
                10 ^ 63 ≤ digitsValue h.toList ∧ 10 ^ 46 ∣ digitsValue h.toList) := by
  refine ⟨fun k s environment honly => ?_, fun h secret environment hlength hdigits honly => ?_⟩
  · obtain ⟨t, hload, hvalue, hothers⟩ := load_of_only honly (reads_rendered s) files
    exact ⟨t, hload, hvalue, fun hliteral => rendered_of_literal hliteral ▸ hvalue, hothers⟩
  · obtain ⟨t, hload, hvalue, -⟩ := load_of_only honly (reads_rendered h) files
    refine ⟨t, rendered h, hload, hvalue, ofSecretText_rendered_iff hdigits hlength, ?_,
      rendered_ne_of_exponential hdigits hlength, ?_⟩
    · exact fun hdecimal hexponential =>
        rendered_of_literal (literal_of_digits hdigits hlength hdecimal hexponential)
    · exact fun hdecimal => zeros_of_rendered hdecimal (length_of_digits hdigits hlength)

/-- Sixty-four ones. -/
def ones : String := String.ofList (List.replicate 64 '1')

/-- A label in upper case comes through in lower case, and a key of ones is lost. -/
theorem load_text_ones :
    (∃ t, load {} none [("IPPAN_STRESS__RUN__LABEL", "TRUE")] = .ok t ∧ t.run.label = "true") ∧
      ∃ t key, load {} none [("IPPAN_STRESS__FUNDING__FUNDER_KEY", ones)] = .ok t ∧
        t.funding.funderKey = some key ∧ key ≠ ones ∧
          Account.ofSecretText key ≠ .ok (Account.ofSeed (List.replicate 32 0x11)) := by
  have hlabel : Only [("IPPAN_STRESS__RUN__LABEL", "TRUE")] (.run .label) "TRUE" := by
    refine ⟨by decide +kernel, ?_⟩
    simp only [List.mem_cons, List.not_mem_nil, or_false]
    rintro entry rfl -
    decide +kernel
  have hkey : Only [("IPPAN_STRESS__FUNDING__FUNDER_KEY", ones)] (.funding .funderKey) ones := by
    refine ⟨by decide +kernel, ?_⟩
    simp only [List.mem_cons, List.not_mem_nil, or_false]
    rintro entry rfl -
    decide +kernel
  have hdigits : ones.toList.map Char.toLower = Hex.encodeChars (List.replicate 32 0x11) := by decide +kernel
  have hdecimal : AllDigits ones.toList := by
    have hlist : ones.toList = List.replicate 64 '1' := String.toList_ofList
    rw [hlist]
    rintro c hc
    obtain rfl := List.eq_of_mem_replicate hc
    rfl
  obtain ⟨t, hload, hvalue, -⟩ := (load_text {}).1 _ _ _ hlabel
  obtain ⟨t', key, hload', hvalue', haccount, -, -, hzeros⟩ := (load_text {}).2 _ _ _ (by decide) hdigits hkey
  have hlost : key ≠ ones := fun hsame => absurd (hzeros hdecimal hsame).2 (by decide +kernel)
  have hlower : rendered "TRUE" = "true" := by decide +kernel
  rw [hlower] at hvalue
  exact ⟨⟨t, hload, Option.some.inj hvalue⟩, t', key, hload', hvalue', hlost, fun heq => hlost (haccount.mp heq)⟩

end Settings

end TransferLoad
