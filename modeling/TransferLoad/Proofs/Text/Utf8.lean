import Mathlib
import TransferLoad.Text.Utf8

/-!
# Text comes back from its bytes

The bytes of a character are a lead byte, which says how many more follow, and continuation bytes. So a
reader finds the end of each character again and reads back the text that was written, strictly or
leniently. The strict reader takes nothing but the bytes of a text. The byte of the line feed stands for
the line feed and occurs in no other character.
-/

namespace TransferLoad.Text.Utf8

theorem toNat_bounds (c : Char) : c.toNat < 0xD800 ∨ 0xDFFF < c.toNat ∧ c.toNat < 0x110000 := c.valid

theorem toNat_byte {n : Nat} (hn : n < 256) : (UInt8.ofNat n).toNat = n := UInt8.toNat_ofNat_of_lt' hn

/-! ### One character -/

theorem first_of_one {c : Char} (hc : c.toNat < 0x80) (rest : Bytes) :
    first (UInt8.ofNat c.toNat) rest = .scalar c 0 := by
  unfold first
  rw [toNat_byte (by omega)]
  simp only [hc, ↓reduceIte, Char.ofNat_toNat]

theorem first_of_two {c : Char} (hlow : 0x80 ≤ c.toNat) (hhigh : c.toNat < 0x800) (rest : Bytes) :
    first (UInt8.ofNat (0xC0 + c.toNat / 64)) (UInt8.ofNat (0x80 + c.toNat % 64) :: rest) =
      .scalar c 1 := by
  have hvalue : (0xC0 + c.toNat / 64 - 0xC0) * 64 + (0x80 + c.toNat % 64) % 64 = c.toNat := by omega
  unfold first isContinuation
  dsimp only
  rw [toNat_byte (show 0xC0 + c.toNat / 64 < 256 by omega),
    toNat_byte (show 0x80 + c.toNat % 64 < 256 by omega), hvalue, Char.ofNat_toNat]
  rw [if_neg (by omega), if_neg (by omega), if_pos (by omega), if_pos (by simp; omega)]

/-- Overlong forms and surrogates are what the range of the second byte leaves out. -/
theorem first_of_three {c : Char} (hlow : 0x800 ≤ c.toNat) (hhigh : c.toNat < 0x10000) (rest : Bytes) :
    first (UInt8.ofNat (0xE0 + c.toNat / 4096))
      (UInt8.ofNat (0x80 + c.toNat / 64 % 64) :: UInt8.ofNat (0x80 + c.toNat % 64) :: rest) =
      .scalar c 2 := by
  have hbounds := toNat_bounds c
  have hvalue : (0xE0 + c.toNat / 4096 - 0xE0) * 4096 + (0x80 + c.toNat / 64 % 64) % 64 * 64 +
      (0x80 + c.toNat % 64) % 64 = c.toNat := by omega
  have hsecond : secondFits (0xE0 + c.toNat / 4096) (UInt8.ofNat (0x80 + c.toNat / 64 % 64)) = true := by
    unfold secondFits secondRange
    rw [toNat_byte (show 0x80 + c.toNat / 64 % 64 < 256 by omega)]
    split
    · simp; omega
    split
    · simp; omega
    rw [if_neg (by omega), if_neg (by omega)]
    simp; omega
  unfold first isContinuation
  dsimp only
  rw [toNat_byte (show 0xE0 + c.toNat / 4096 < 256 by omega), hsecond,
    toNat_byte (show 0x80 + c.toNat / 64 % 64 < 256 by omega),
    toNat_byte (show 0x80 + c.toNat % 64 < 256 by omega), hvalue, Char.ofNat_toNat]
  rw [if_neg (by omega), if_neg (by omega), if_neg (by omega), if_pos (by omega)]
  rw [if_neg (by simp), if_pos (by simp; omega)]

theorem first_of_four {c : Char} (hlow : 0x10000 ≤ c.toNat) (rest : Bytes) :
    first (UInt8.ofNat (0xF0 + c.toNat / 262144))
      (UInt8.ofNat (0x80 + c.toNat / 4096 % 64) :: UInt8.ofNat (0x80 + c.toNat / 64 % 64) ::
        UInt8.ofNat (0x80 + c.toNat % 64) :: rest) = .scalar c 3 := by
  have hbounds := toNat_bounds c
  have hvalue : (0xF0 + c.toNat / 262144 - 0xF0) * 262144 + (0x80 + c.toNat / 4096 % 64) % 64 * 4096 +
      (0x80 + c.toNat / 64 % 64) % 64 * 64 + (0x80 + c.toNat % 64) % 64 = c.toNat := by omega
  have hsecond :
      secondFits (0xF0 + c.toNat / 262144) (UInt8.ofNat (0x80 + c.toNat / 4096 % 64)) = true := by
    unfold secondFits secondRange
    rw [toNat_byte (show 0x80 + c.toNat / 4096 % 64 < 256 by omega), if_neg (by omega), if_neg (by omega)]
    split
    · simp; omega
    split
    · simp; omega
    simp; omega
  unfold first isContinuation
  dsimp only
  rw [toNat_byte (show 0xF0 + c.toNat / 262144 < 256 by omega), hsecond,
    toNat_byte (show 0x80 + c.toNat / 4096 % 64 < 256 by omega),
    toNat_byte (show 0x80 + c.toNat / 64 % 64 < 256 by omega),
    toNat_byte (show 0x80 + c.toNat % 64 < 256 by omega), hvalue, Char.ofNat_toNat]
  rw [if_neg (by omega), if_neg (by omega), if_neg (by omega), if_neg (by omega), if_pos (by omega)]
  rw [if_neg (by simp), if_neg (by simp; omega), if_pos (by simp; omega)]

/-- A character is read back from its bytes, whatever follows. -/
theorem first_encodeChar (c : Char) :
    ∃ lead further, encodeChar c = lead :: further ∧
      ∀ rest, first lead (further ++ rest) = .scalar c further.length := by
  unfold encodeChar
  dsimp only
  split
  · exact ⟨_, _, rfl, first_of_one ‹_›⟩
  split
  · exact ⟨_, _, rfl, first_of_two (by omega) ‹_›⟩
  split
  · exact ⟨_, _, rfl, first_of_three (by omega) ‹_›⟩
  · exact ⟨_, _, rfl, first_of_four (by omega)⟩

/-! ### Whole texts -/

theorem encodeChars_cons (c : Char) (rest : List Char) :
    ∃ lead further, encodeChars (c :: rest) = lead :: (further ++ encodeChars rest) ∧
      first lead (further ++ encodeChars rest) = .scalar c further.length := by
  obtain ⟨lead, further, hencode, hfirst⟩ := first_encodeChar c
  refine ⟨lead, further, ?_, hfirst (encodeChars rest)⟩
  rw [encodeChars, List.flatMap_cons, hencode]
  rfl

theorem decodeFrom_encodeChars (index : Nat) (chars : List Char) :
    decodeFrom index (encodeChars chars) = .ok chars := by
  induction chars generalizing index with
  | nil => rw [encodeChars, List.flatMap_nil, decodeFrom]
  | cons c rest ih =>
    obtain ⟨lead, further, hbytes, hfirst⟩ := encodeChars_cons c rest
    rw [hbytes, decodeFrom, hfirst]
    dsimp only
    rw [List.drop_left, ih]
    rfl

theorem decode_encode (text : String) : decode (encode text) = .ok text := by
  rw [decode, encode, decodeFrom_encodeChars]
  exact congrArg Except.ok (String.ofList_toList ..)

theorem decodeLossyChars_encodeChars (chars : List Char) :
    decodeLossyChars (encodeChars chars) = chars := by
  induction chars with
  | nil => rw [encodeChars, List.flatMap_nil, decodeLossyChars]
  | cons c rest ih =>
    obtain ⟨lead, further, hbytes, hfirst⟩ := encodeChars_cons c rest
    rw [hbytes, decodeLossyChars, hfirst]
    dsimp only
    rw [List.drop_left, ih]

theorem decodeLossy_encode (text : String) : decodeLossy (encode text) = text := by
  rw [decodeLossy, encode, decodeLossyChars_encodeChars, String.ofList_toList]

theorem encodeChars_append (first second : List Char) :
    encodeChars (first ++ second) = encodeChars first ++ encodeChars second := List.flatMap_append

theorem encode_append (first second : String) : encode (first ++ second) = encode first ++ encode second := by
  rw [encode, String.toList_append, encodeChars_append, encode, encode]

/-! ### Only texts are read -/

theorem toNat_ofNat_of_valid {n : Nat} (hn : n < 0xD800 ∨ 0xDFFF < n ∧ n < 0x110000) :
    (Char.ofNat n).toNat = n := by
  rw [Char.toNat_ofNat]
  exact if_pos hn

theorem ofNat_eq_of_toNat {b : UInt8} {n : Nat} (hn : b.toNat = n) : UInt8.ofNat n = b := by
  rw [← hn, UInt8.ofNat_toNat]

theorem bounds_of_secondFits {lead : Nat} {b : UInt8} (hb : secondFits lead b = true) :
    0x80 ≤ b.toNat ∧ b.toNat ≤ 0xBF ∧ (lead = 0xE0 → 0xA0 ≤ b.toNat) ∧
      (lead = 0xED → b.toNat ≤ 0x9F) ∧ (lead = 0xF0 → 0x90 ≤ b.toNat) ∧
      (lead = 0xF4 → b.toNat ≤ 0x8F) := by
  simp only [secondFits, Bool.and_eq_true, decide_eq_true_eq] at hb
  unfold secondRange at hb
  split_ifs at hb <;> omega

theorem encodeChar_of_one {lead : UInt8} (hlead : lead.toNat < 0x80) :
    encodeChar (Char.ofNat lead.toNat) = [lead] := by
  unfold encodeChar
  rw [toNat_ofNat_of_valid (by omega)]
  dsimp only
  rw [if_pos hlead, UInt8.ofNat_toNat]

theorem encodeChar_of_two {lead b : UInt8} (hlow : 0xC2 ≤ lead.toNat) (hhigh : lead.toNat < 0xE0)
    (hb : isContinuation b = true) :
    encodeChar (Char.ofNat ((lead.toNat - 0xC0) * 64 + b.toNat % 64)) = [lead, b] := by
  simp only [isContinuation, Bool.and_eq_true, decide_eq_true_eq] at hb
  unfold encodeChar
  rw [toNat_ofNat_of_valid (by omega)]
  dsimp only
  rw [if_neg (by omega), if_pos (by omega), ofNat_eq_of_toNat (b := lead) (by omega),
    ofNat_eq_of_toNat (b := b) (by omega)]

theorem encodeChar_of_three {lead b c : UInt8} (hlow : 0xE0 ≤ lead.toNat) (hhigh : lead.toNat < 0xF0)
    (hb : secondFits lead.toNat b = true) (hc : isContinuation c = true) :
    encodeChar (Char.ofNat ((lead.toNat - 0xE0) * 4096 + b.toNat % 64 * 64 + c.toNat % 64)) =
      [lead, b, c] := by
  simp only [isContinuation, Bool.and_eq_true, decide_eq_true_eq] at hc
  obtain ⟨hfirst, hlast, hoverlong, hsurrogate, -, -⟩ := bounds_of_secondFits hb
  unfold encodeChar
  rw [toNat_ofNat_of_valid (by omega)]
  dsimp only
  rw [if_neg (by omega), if_neg (by omega), if_pos (by omega), ofNat_eq_of_toNat (b := lead) (by omega),
    ofNat_eq_of_toNat (b := b) (by omega), ofNat_eq_of_toNat (b := c) (by omega)]

theorem encodeChar_of_four {lead b c d : UInt8} (hlow : 0xF0 ≤ lead.toNat) (hhigh : lead.toNat < 0xF5)
    (hb : secondFits lead.toNat b = true) (hc : isContinuation c = true) (hd : isContinuation d = true) :
    encodeChar (Char.ofNat ((lead.toNat - 0xF0) * 262144 + b.toNat % 64 * 4096 + c.toNat % 64 * 64 +
      d.toNat % 64)) = [lead, b, c, d] := by
  simp only [isContinuation, Bool.and_eq_true, decide_eq_true_eq] at hc hd
  obtain ⟨hfirst, hlast, -, -, hoverlong, hpast⟩ := bounds_of_secondFits hb
  unfold encodeChar
  rw [toNat_ofNat_of_valid (by omega)]
  dsimp only
  rw [if_neg (by omega), if_neg (by omega), if_neg (by omega), ofNat_eq_of_toNat (b := lead) (by omega),
    ofNat_eq_of_toNat (b := b) (by omega), ofNat_eq_of_toNat (b := c) (by omega),
    ofNat_eq_of_toNat (b := d) (by omega)]

/-- A character that is read is written with the bytes that it was read from. -/
theorem encodeChar_of_first {lead : UInt8} {rest : Bytes} {c : Char} {further : Nat}
    (hfirst : first lead rest = .scalar c further) : encodeChar c = lead :: rest.take further := by
  unfold first at hfirst
  dsimp only at hfirst
  split at hfirst
  · cases hfirst
    exact encodeChar_of_one ‹_›
  split at hfirst
  · cases hfirst
  split at hfirst
  · split at hfirst
    · cases hfirst
    · split at hfirst
      · cases hfirst
        exact encodeChar_of_two (by omega) ‹_› ‹_›
      · cases hfirst
  split at hfirst
  · split at hfirst
    · cases hfirst
    · split at hfirst
      · cases hfirst
      · rename_i hsecond
        split at hfirst
        · cases hfirst
        · split at hfirst
          · cases hfirst
            exact encodeChar_of_three (by omega) ‹_› (by simpa using hsecond) ‹_›
          · cases hfirst
  split at hfirst
  · split at hfirst
    · cases hfirst
    · split at hfirst
      · cases hfirst
      · rename_i hsecond
        split at hfirst
        · cases hfirst
        · split at hfirst
          · cases hfirst
          · rename_i hthird
            split at hfirst
            · cases hfirst
            · split at hfirst
              · cases hfirst
                exact encodeChar_of_four (by omega) ‹_› (by simpa using hsecond)
                  (by simpa using hthird) ‹_›
              · cases hfirst
  · cases hfirst

theorem encodeChars_of_decodeFrom {index : Nat} {bytes : Bytes} {chars : List Char}
    (hread : decodeFrom index bytes = .ok chars) : encodeChars chars = bytes := by
  induction index, bytes using decodeFrom.induct generalizing chars with
  | case1 index =>
    rw [decodeFrom] at hread
    cases hread
    rfl
  | case2 index lead rest c further hfirst ih =>
    rw [decodeFrom, hfirst] at hread
    dsimp only at hread
    cases htail : decodeFrom (index + 1 + further) (rest.drop further) with
    | error cause =>
      rw [htail] at hread
      cases hread
    | ok tail =>
      rw [htail] at hread
      cases hread
      rw [encodeChars, List.flatMap_cons, encodeChar_of_first hfirst, ← encodeChars, ih htail,
        List.cons_append, List.take_append_drop]
  | case3 index lead rest further hfirst =>
    rw [decodeFrom, hfirst] at hread
    cases hread
  | case4 index lead rest hfirst =>
    rw [decodeFrom, hfirst] at hread
    cases hread

/-- Strict reading takes the bytes of a text and nothing else. -/
theorem decode_eq_ok_iff {bytes : Bytes} {text : String} : decode bytes = .ok text ↔ encode text = bytes := by
  constructor
  · intro hread
    rw [decode] at hread
    cases hchars : decodeFrom 0 bytes with
    | error cause =>
      rw [hchars] at hread
      cases hread
    | ok chars =>
      rw [hchars] at hread
      cases hread
      rw [encode, String.toList_ofList]
      exact encodeChars_of_decodeFrom hchars
  · rintro rfl
    exact decode_encode text

/-! ### One byte for each character -/

theorem toNat_lt_of_mem_encodeChars {chars : List Char} (hascii : ∀ c ∈ chars, c.toNat < 0x80) {byte : UInt8}
    (hbyte : byte ∈ encodeChars chars) : byte.toNat < 0x80 := by
  obtain ⟨c, hc, hmem⟩ := List.mem_flatMap.mp hbyte
  have hn := hascii c hc
  unfold encodeChar at hmem
  dsimp only at hmem
  rw [if_pos hn, List.mem_singleton] at hmem
  rw [hmem, toNat_byte (by omega)]
  exact hn

theorem encode_of_ascii {text : String} (hascii : ∀ c ∈ text.toList, c.toNat < 0x80) :
    encode text = text.toList.map fun c => UInt8.ofNat c.toNat := by
  rw [encode, encodeChars, List.map_eq_flatMap]
  refine List.flatMap_congr fun c hc => ?_
  rw [encodeChar, if_pos (hascii c hc)]

theorem take_encode_of_ascii {text : String} (hascii : ∀ c ∈ text.toList, c.toNat < 0x80) (count : Nat) :
    (encode text).take count = encode (String.ofList (text.toList.take count)) := by
  have hstart : ∀ c ∈ (String.ofList (text.toList.take count)).toList, c.toNat < 0x80 := by
    rw [String.toList_ofList]
    exact fun c hc => hascii c (List.mem_of_mem_take hc)
  rw [encode_of_ascii hascii, encode_of_ascii hstart, String.toList_ofList, List.map_take]

theorem exists_encode_eq {bytes : Bytes} (hascii : ∀ byte ∈ bytes, byte.toNat < 0x80) :
    ∃ text, encode text = bytes := by
  refine ⟨String.ofList (bytes.map fun byte => Char.ofNat byte.toNat), ?_⟩
  rw [encode, String.toList_ofList]
  induction bytes with
  | nil => rfl
  | cons byte rest ih =>
    rw [List.forall_mem_cons] at hascii
    rw [List.map_cons, encodeChars, List.flatMap_cons, ← encodeChars, ih hascii.2,
      encodeChar_of_one hascii.1]
    rfl

/-! ### Line feeds -/

def lineFeed : UInt8 := 10

theorem lineFeed_mem_encodeChar {c : Char} : lineFeed ∈ encodeChar c ↔ c = '\n' := by
  constructor
  · intro hmem
    have hbounds := toNat_bounds c
    have hbyte : ∀ n, n < 256 → lineFeed = UInt8.ofNat n → n = 10 := by
      intro n hn heq
      rw [← toNat_byte hn, ← heq]
      rfl
    unfold encodeChar at hmem
    dsimp only at hmem
    split at hmem
    · have hvalue := hbyte _ (by omega) (List.mem_singleton.mp hmem)
      rw [← Char.ofNat_toNat c, hvalue]
    split at hmem
    · simp only [List.mem_cons, List.not_mem_nil, or_false] at hmem
      rcases hmem with hmem | hmem
      all_goals have hvalue := hbyte _ (by omega) hmem; omega
    split at hmem
    · simp only [List.mem_cons, List.not_mem_nil, or_false] at hmem
      rcases hmem with hmem | hmem | hmem
      all_goals have hvalue := hbyte _ (by omega) hmem; omega
    · simp only [List.mem_cons, List.not_mem_nil, or_false] at hmem
      rcases hmem with hmem | hmem | hmem | hmem
      all_goals have hvalue := hbyte _ (by omega) hmem; omega
  · rintro rfl
    decide

theorem lineFeed_mem_encodeChars {chars : List Char} : lineFeed ∈ encodeChars chars ↔ '\n' ∈ chars := by
  rw [encodeChars, List.mem_flatMap]
  constructor
  · rintro ⟨c, hc, hmem⟩
    exact lineFeed_mem_encodeChar.mp hmem ▸ hc
  · intro hmem
    exact ⟨'\n', hmem, lineFeed_mem_encodeChar.mpr rfl⟩

end TransferLoad.Text.Utf8
