import TransferLoad.Proofs.Account
import TransferLoad.Proofs.Address

/-!
# Which texts are addresses

Reading an address measures and compares bytes. Seen as characters, the texts that it takes are the letter
followed by 64 hexadecimal digits in either case, and writing what was read puts the digits into lower
case. A text of other characters that happens to have as many bytes is no address.
-/

namespace TransferLoad

namespace Text.Hex

/-- A decimal digit or a letter from a to f, in either case. -/
def IsDigit (c : Char) : Prop := ('0' ≤ c ∧ c ≤ '9') ∨ ('a' ≤ c ∧ c ≤ 'f') ∨ ('A' ≤ c ∧ c ≤ 'F')

theorem toNat_toLower (c : Char) :
    c.toLower.toNat = if 65 ≤ c.toNat ∧ c.toNat ≤ 90 then c.toNat + 32 else c.toNat := by
  have hupper : c.isUpper = true ↔ 65 ≤ c.toNat ∧ c.toNat ≤ 90 := by
    simp [Char.isUpper, UInt32.le_iff_toNat_le, ← Char.toNat_val]
  by_cases hcase : c.isUpper = true
  · rw [if_pos (hupper.mp hcase), Char.toLower_eq_of_isUpper hcase]
    have hrange := hupper.mp hcase
    exact Utf8.toNat_ofNat_of_valid (by omega)
  · rw [if_neg (fun hrange => hcase (hupper.mpr hrange)), Char.toLower_eq_of_not_isUpper hcase]

/-- In lower case the sixteen digits are the ones that are written. -/
theorem isDigit_iff {c : Char} : IsDigit c ↔ ∃ n < 16, c.toLower = digit n := by
  have hrange : IsDigit c ↔ (48 ≤ c.toNat ∧ c.toNat ≤ 57) ∨ (97 ≤ c.toNat ∧ c.toNat ≤ 102) ∨
      (65 ≤ c.toNat ∧ c.toNat ≤ 70) := by
    simp [IsDigit, Char.le_def, UInt32.le_iff_toNat_le, ← Char.toNat_val]
  have hlower := toNat_toLower c
  rw [hrange]
  constructor
  · intro hdigit
    have hvalue : ∃ n < 16, c.toLower.toNat = if n < 10 then 48 + n else 87 + n := by
      rcases hdigit with hdigit | hdigit | hdigit
      · exact ⟨c.toNat - 48, by omega, by split at hlower <;> split <;> omega⟩
      · exact ⟨c.toNat - 87, by omega, by split at hlower <;> split <;> omega⟩
      · exact ⟨c.toNat - 55, by omega, by split at hlower <;> split <;> omega⟩
    obtain ⟨n, hn, hvalue⟩ := hvalue
    exact ⟨n, hn, Char.toNat_inj.mp (hvalue.trans (toNat_digit hn).symm)⟩
  · rintro ⟨n, hn, heq⟩
    have hdigit := toNat_digit hn
    rw [← heq] at hdigit
    split at hdigit <;> split at hlower <;> omega

/-- Digits two by two are the digits of bytes. -/
theorem exists_encodeChars_eq {count : Nat} {digits : List Char} (hlength : digits.length = 2 * count)
    (hdigits : ∀ c ∈ digits, ∃ n < 16, c = digit n) :
    ∃ bytes : Bytes, bytes.length = count ∧ encodeChars bytes = digits := by
  induction count generalizing digits with
  | zero =>
    obtain rfl := List.length_eq_zero_iff.mp hlength
    exact ⟨[], rfl, rfl⟩
  | succ count ih =>
    obtain ⟨high, tail, rfl⟩ := List.exists_cons_of_length_eq_add_one (n := 2 * count + 1) hlength
    have htail : tail.length = 2 * count + 1 := by simpa [Nat.mul_add] using hlength
    obtain ⟨low, rest, rfl⟩ := List.exists_cons_of_length_eq_add_one htail
    simp only [List.forall_mem_cons] at hdigits
    obtain ⟨⟨h, hh, rfl⟩, ⟨l, hl, rfl⟩, hrest⟩ := hdigits
    obtain ⟨bytes, hcount, rfl⟩ := ih (by simpa using htail) hrest
    refine ⟨UInt8.ofNat (16 * h + l) :: bytes, by simp [hcount], ?_⟩
    have hbyte : (UInt8.ofNat (16 * h + l)).toNat = 16 * h + l := Utf8.toNat_byte (by omega)
    have hhigh : (16 * h + l) / 16 = h := by omega
    have hlow : (16 * h + l) % 16 = l := by omega
    rw [encodeChars, hbyte, hhigh, hlow]

/-- A character whose first byte is a digit has no further byte and is that digit. -/
theorem toLower_of_lower_lead {c : Char} {lead : UInt8} {own : Bytes} {n : Nat} (hn : n < 16)
    (hbytes : Utf8.encodeChar c = lead :: own) (hlead : lower lead = UInt8.ofNat (digit n).toNat) :
    own = [] ∧ c.toLower = digit n := by
  have hdigit := toNat_digit hn
  have hvalue : (lower lead).toNat = (digit n).toNat := by
    rw [hlead]
    exact Utf8.toNat_byte (by split at hdigit <;> omega)
  have hlower := toNat_lower lead
  by_cases hascii : c.toNat < 0x80
  · rw [Utf8.encodeChar, if_pos hascii, List.cons.injEq] at hbytes
    have hcode : lead.toNat = c.toNat := by
      rw [← hbytes.1]
      exact Utf8.toNat_byte (by omega)
    refine ⟨hbytes.2.symm, Char.toNat_inj.mp ?_⟩
    have htoLower := toNat_toLower c
    split at hdigit <;> split at hlower <;> split at htoLower <;> omega
  · have hhigh : 0xC0 ≤ lead.toNat := by
      have hbounds := Utf8.toNat_bounds c
      have hfirst : ∀ m, m < 256 → 0xC0 ≤ m → UInt8.ofNat m = lead → 0xC0 ≤ lead.toNat := by
        rintro m hm hle rfl
        rwa [Utf8.toNat_byte hm]
      unfold Utf8.encodeChar at hbytes
      dsimp only at hbytes
      rw [if_neg hascii] at hbytes
      split at hbytes
      · exact hfirst _ (by omega) (by omega) (List.cons.inj hbytes).1
      · split at hbytes
        · exact hfirst _ (by omega) (by omega) (List.cons.inj hbytes).1
        · exact hfirst _ (by omega) (by omega) (List.cons.inj hbytes).1
    exfalso
    split at hdigit <;> split at hlower <;> omega

/-- Characters are read as bytes exactly if, in lower case, they are the digits of the bytes. -/
theorem decode_encodeChars_eq_ok_iff {digits : List Char} {bytes : Bytes} :
    decode (Utf8.encodeChars digits) = .ok bytes ↔ digits.map Char.toLower = encodeChars bytes := by
  constructor
  · intro hread
    rw [decode_eq_ok_iff] at hread
    have hwritten : ∀ c ∈ encodeChars bytes, ∃ n < 16, c = digit n := fun _ => exists_digit_of_mem
    generalize encodeChars bytes = written at hread hwritten ⊢
    induction digits generalizing written with
    | nil =>
      cases written with
      | nil => rfl
      | cons w rest =>
        obtain ⟨lead, own, hbytes, -⟩ := Utf8.encodeChars_cons w rest
        rw [hbytes] at hread
        cases hread
    | cons c digits ih =>
      obtain ⟨lead, own, hbytes, -⟩ := Utf8.encodeChars_cons c digits
      cases written with
      | nil =>
        rw [hbytes] at hread
        cases hread
      | cons w rest =>
        obtain ⟨n, hn, rfl⟩ := hwritten w (by simp)
        have hown : Utf8.encodeChar c = lead :: own := by
          rw [Utf8.encodeChars, List.flatMap_cons, ← Utf8.encodeChars, ← List.cons_append] at hbytes
          exact List.append_cancel_right hbytes
        have hfirst : Utf8.encodeChars (digit n :: rest) =
            UInt8.ofNat (digit n).toNat :: Utf8.encodeChars rest := by
          rw [Utf8.encodeChars, List.flatMap_cons, encodeChar_digit hn]
          rfl
        rw [hbytes, List.map_cons, hfirst, List.cons.injEq] at hread
        obtain ⟨rfl, hc⟩ := toLower_of_lower_lead hn hown hread.1
        rw [List.map_cons, hc, ih rest hread.2 fun d hd => hwritten d (List.mem_cons_of_mem _ hd)]
  · intro hlower
    have htext : (String.ofList digits).toList.map Char.toLower = encodeChars bytes := by simpa using hlower
    simpa [Utf8.encode] using decode_of_toLower htext

end Text.Hex

namespace Address

open Text

/-- The letter and 64 hexadecimal digits in either case. -/
def IsText (text : String) : Prop :=
  ∃ digits, text.toList = 'i' :: digits ∧ digits.length = 64 ∧ ∀ c ∈ digits, Hex.IsDigit c

/-- A text with everything behind its first character in lower case. -/
def withLowerDigits (text : String) : String :=
  String.ofList (text.toList.take 1 ++ (text.toList.drop 1).map Char.toLower)

theorem parse_eq_ok_iff_digits {text : String} {a : Address} :
    parse text = .ok a ↔ ∃ digits, text.toList = 'i' :: digits ∧
      digits.map Char.toLower = Hex.encodeChars a.raw.val := by
  have hcons : ∀ digits, parseChars ('i' :: digits) = .ok a ↔
      digits.map Char.toLower = Hex.encodeChars a.raw.val := by
    intro digits
    rw [parseChars_eq_ok_iff, encode_render, ← Hex.decode_encodeChars_eq_ok_iff, Hex.decode_eq_ok_iff]
    show Hex.lower letter :: _ = _ ↔ _
    rw [show Hex.lower letter = letter from rfl, List.cons.injEq]
    exact and_iff_right rfl
  have hparse : parse text = .ok a ↔ parseChars text.toList = .ok a := by
    unfold parse
    cases parseChars text.toList with
    | ok b => simp
    | error cause => simp
  rw [hparse]
  constructor
  · intro hread
    cases hchars : text.toList with
    | nil =>
      rw [hchars] at hread
      cases hread
    | cons c digits =>
      rw [hchars] at hread
      have hletter : c = 'i' := by
        by_contra hother
        unfold parseChars at hread
        split at hread
        · rename_i hsame
          exact hother (List.cons.inj hsame).1
        · cases hread
      subst hletter
      exact ⟨digits, rfl, (hcons digits).mp hread⟩
  · rintro ⟨digits, hchars, hdigits⟩
    rw [hchars]
    exact (hcons digits).mpr hdigits

theorem parse_render (a : Address) : parse a.render = .ok a := by
  rw [parse_eq_ok_iff, encode_render, List.map_cons, Hex.map_lower_encodeChars]
  rfl

/-- What was read is written as the text with its digits in lower case. -/
theorem render_of_parse {text : String} {a : Address} (hread : parse text = .ok a) :
    a.render = withLowerDigits text := by
  obtain ⟨digits, hchars, hdigits⟩ := parse_eq_ok_iff_digits.mp hread
  apply String.toList_inj.mp
  rw [toList_render, withLowerDigits, hchars, ← hdigits]
  simp

theorem exists_parse_iff {text : String} : (∃ a, parse text = .ok a) ↔ IsText text := by
  constructor
  · rintro ⟨a, hread⟩
    obtain ⟨digits, hchars, hdigits⟩ := parse_eq_ok_iff_digits.mp hread
    refine ⟨digits, hchars, ?_, ?_⟩
    · rw [← List.length_map Char.toLower, hdigits, Hex.length_encodeChars, a.raw.property]
    · intro c hc
      apply Hex.isDigit_iff.mpr
      exact Hex.exists_digit_of_mem (hdigits ▸ List.mem_map_of_mem hc)
  · rintro ⟨digits, hchars, hlength, hall⟩
    have hlower : (digits.map Char.toLower).length = 2 * 32 := by simpa using hlength
    have hdigits : ∀ c ∈ digits.map Char.toLower, ∃ n < 16, c = Hex.digit n := by
      intro c hc
      obtain ⟨d, hd, rfl⟩ := List.mem_map.mp hc
      exact Hex.isDigit_iff.mp (hall d hd)
    obtain ⟨raw, hraw, hwritten⟩ := Hex.exists_encodeChars_eq hlower hdigits
    exact ⟨⟨⟨raw, hraw⟩⟩, parse_eq_ok_iff_digits.mpr ⟨digits, hchars, hwritten.symm⟩⟩

/-- Texts that are the same but for the case of their digits are read alike. -/
theorem parse_of_withLowerDigits {text text' : String} {a : Address} (hread : parse text = .ok a)
    (hsame : withLowerDigits text = withLowerDigits text') : parse text' = .ok a := by
  obtain ⟨digits, hchars, hdigits⟩ := parse_eq_ok_iff_digits.mp hread
  apply parse_eq_ok_iff_digits.mpr
  have hlists := congrArg String.toList hsame
  simp only [withLowerDigits, hchars, String.toList_ofList] at hlists
  cases hchars' : text'.toList with
  | nil => simp [hchars'] at hlists
  | cons c digits' =>
    simp [hchars'] at hlists
    obtain ⟨rfl, hdigits'⟩ := hlists
    exact ⟨digits', rfl, hdigits'.symm.trans hdigits⟩

/-- Every address comes back from its text. The texts that are read are the letter with 64 hexadecimal digits
in either case, whatever else may have as many bytes; what they are read as is written with the digits in
lower case, and any other text is refused by name. So texts stand for the same address exactly if they
differ in the case of their digits only, and different addresses have different texts. -/
theorem texts_exact :
    (∀ a : Address, parse a.render = .ok a) ∧
    (∀ text, ((∃ a, parse text = .ok a) ↔ IsText text) ∧
      (∀ a, parse text = .ok a → a.render = withLowerDigits text) ∧
      (¬ IsText text → ∃ cause, parse text = .error (.invalidAddress (text ++ ": " ++ cause)))) ∧
    (∀ text text', (∃ a, parse text = .ok a ∧ parse text' = .ok a) ↔
      IsText text ∧ withLowerDigits text = withLowerDigits text') ∧
    Function.Injective render := by
  refine ⟨parse_render, fun text => ⟨exists_parse_iff, fun a => render_of_parse, fun hother => ?_⟩,
    fun text text' => ⟨?_, ?_⟩, fun a b heq => ?_⟩
  · cases hread : parseChars text.toList with
    | ok a =>
      have hparse : parse text = .ok a := by
        rw [parse, hread]
      exact absurd (exists_parse_iff.mp ⟨a, hparse⟩) hother
    | error cause => exact ⟨cause.message, by rw [parse, hread]⟩
  · rintro ⟨a, hread, hread'⟩
    exact ⟨exists_parse_iff.mp ⟨a, hread⟩, (render_of_parse hread).symm.trans (render_of_parse hread')⟩
  · rintro ⟨htext, hsame⟩
    obtain ⟨a, hread⟩ := exists_parse_iff.mpr htext
    exact ⟨a, hread, parse_of_withLowerDigits hread hsame⟩
  · have hread := parse_render a
    rw [heq, parse_render] at hread
    exact (Except.ok.inj hread).symm

/-- The digits of 32 bytes `0xAA`, in mixed case. -/
def mixedDigits : List Char := List.replicate 32 'A' ++ List.replicate 32 'a'

theorem texts_exact_mixed :
    IsText (String.ofList ('i' :: mixedDigits)) ∧
      parse (String.ofList ('i' :: mixedDigits)) = .ok ⟨⟨List.replicate 32 0xAA, rfl⟩⟩ ∧
      render ⟨⟨List.replicate 32 0xAA, rfl⟩⟩ = withLowerDigits (String.ofList ('i' :: mixedDigits)) ∧
      ∃ cause, parse "I0" = .error (.invalidAddress ("I0" ++ ": " ++ cause)) := by
  obtain ⟨hback, htexts, hsame, -⟩ := texts_exact
  have htext : IsText (String.ofList ('i' :: mixedDigits)) :=
    ⟨mixedDigits, by simp, by simp [mixedDigits], by simp [mixedDigits, Hex.IsDigit]⟩
  have hdigits : mixedDigits.map Char.toLower = Hex.encodeChars (List.replicate 32 0xAA) := by decide
  have hcase : withLowerDigits (String.ofList ('i' :: mixedDigits)) =
      withLowerDigits (render ⟨⟨List.replicate 32 0xAA, rfl⟩⟩) := by
    rw [← render_of_parse (hback _)]
    apply String.toList_inj.mp
    simp [withLowerDigits, toList_render, hdigits]
  obtain ⟨a, hread, hread'⟩ := (hsame _ _).mpr ⟨htext, hcase⟩
  obtain rfl : ⟨⟨List.replicate 32 0xAA, rfl⟩⟩ = a := Except.ok.inj ((hback _).symm.trans hread')
  refine ⟨htext, hread, (htexts _).2.1 _ hread, (htexts "I0").2.2 ?_⟩
  rintro ⟨digits, hchars, -, -⟩
  simp at hchars

end Address

end TransferLoad
