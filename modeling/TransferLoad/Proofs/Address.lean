import TransferLoad.Address
import TransferLoad.Proofs.Text.Hex

/-!
# Addresses come back from their text

The texts of an address are its letter followed by its digits in either case. Reading takes these texts
and no others, whatever characters a text consists of: the bytes are what is measured and compared.
-/

namespace TransferLoad.Address

open Text (Hex.lower)
open Text.Utf8 (encodeChar encodeChars encode)

/-- The letter that stands before the digits, as a byte. -/
def letter : UInt8 := 105

theorem toList_render (a : Address) : a.render.toList = 'i' :: Text.Hex.encodeChars a.raw.val := by
  simp [render, Text.Hex.encode]

theorem encode_render (a : Address) :
    encode a.render = letter :: encodeChars (Text.Hex.encodeChars a.raw.val) := by
  rw [encode, toList_render]
  rfl

theorem length_encode_render (a : Address) : (encode a.render).length = textLength := by
  rw [encode_render, List.length_cons, Text.Hex.length_encodeChars_encodeChars, a.raw.property]
  rfl

theorem length_of_map_lower {bytes : Bytes} {a : Address}
    (hbytes : bytes.map Hex.lower = encode a.render) : bytes.length = textLength := by
  rw [← List.length_map Hex.lower, hbytes, length_encode_render]

theorem lower_eq_letter_iff {byte : UInt8} : Hex.lower byte = letter ↔ byte = letter := by
  rw [← UInt8.toNat_inj, ← UInt8.toNat_inj, Text.Hex.toNat_lower]
  change _ = 105 ↔ _ = 105
  split <;> omega

/-- The letter is the only character whose bytes begin with the letter's byte. -/
theorem eq_letter_of_encodeChars {c : Char} {rest : List Char} {further : Bytes}
    (heq : encodeChars (c :: rest) = letter :: further) : c = 'i' := by
  obtain ⟨lead, own, hbytes, hfirst⟩ := Text.Utf8.encodeChars_cons c rest
  rw [hbytes, List.cons.injEq] at heq
  have hletter : Text.Utf8.first letter (own ++ encodeChars rest) = .scalar 'i' 0 :=
    Text.Utf8.first_of_one (c := 'i') (by decide) _
  rw [heq.1, hletter, Text.Utf8.Piece.scalar.injEq] at hfirst
  exact hfirst.1.symm

theorem parseChars_eq_ok_iff {chars : List Char} {a : Address} :
    parseChars chars = .ok a ↔ (encodeChars chars).map Hex.lower = encode a.render := by
  constructor
  · intro hparse
    rw [encode_render]
    unfold parseChars at hparse
    split at hparse
    · rename_i digits
      dsimp only at hparse
      split at hparse
      · split at hparse
        · cases hparse
        · rename_i raw hdigits
          split at hparse
          · cases hparse
            exact congrArg (letter :: ·) (Text.Hex.decode_eq_ok_iff.mp hdigits)
          · cases hparse
      · cases hparse
    · cases hparse
  · intro heq
    have hlength := length_of_map_lower heq
    rw [encode_render] at heq
    cases chars with
    | nil => cases heq
    | cons c digits =>
      obtain ⟨lead, own, hbytes, -⟩ := Text.Utf8.encodeChars_cons c digits
      have hletter : lead = letter := by
        rw [hbytes] at heq
        exact lower_eq_letter_iff.mp (List.cons.inj heq).1
      obtain rfl := eq_letter_of_encodeChars (hletter ▸ hbytes)
      have hdigits : Text.Hex.decode (encodeChars digits) = .ok a.raw.val :=
        Text.Hex.decode_eq_ok_iff.mpr (List.cons.inj heq).2
      have hmeasured : (encodeChars digits).length + 1 = textLength := hlength
      simp only [parseChars, if_pos hmeasured, hdigits, dif_pos a.raw.property]

/-- Bytes that stand for an address are the bytes of a text. -/
theorem exists_text_of_map_lower {bytes : Bytes} {a : Address} (hbytes : bytes.map Hex.lower = encode a.render) :
    ∃ text, encode text = bytes := by
  refine Text.Utf8.exists_encode_eq fun byte hbyte => ?_
  have hlower : (Hex.lower byte).toNat < 0x80 := by
    have hmem : Hex.lower byte ∈ encodeChars a.render.toList := by
      rw [← encode, ← hbytes]
      exact List.mem_map_of_mem hbyte
    refine Text.Utf8.toNat_lt_of_mem_encodeChars ?_ hmem
    rw [toList_render, List.forall_mem_cons]
    refine ⟨by decide, fun c hc => ?_⟩
    have := Text.Hex.printable_encodeChars _ c hc
    omega
  rw [Text.Hex.toNat_lower] at hlower
  split at hlower <;> omega

/-- A text is read as an address exactly if it is the text of the address but for the case of its
digits. -/
theorem parse_eq_ok_iff {text : String} {a : Address} :
    parse text = .ok a ↔ (encode text).map Hex.lower = encode a.render := by
  rw [encode, ← parseChars_eq_ok_iff]
  unfold parse
  cases parseChars text.toList with
  | ok b => simp only [Except.ok.injEq]
  | error cause => simp only [reduceCtorEq]

end TransferLoad.Address
