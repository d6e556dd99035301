import TransferLoad.Transfer
import TransferLoad.Proofs.Address

/-!
# Envelopes come back from their bytes

A reader is described by the forms of each value: the byte strings that it takes off the front to give
that value. Forms of a part followed by forms of the next are the forms of the whole, so the forms of an
envelope are read off its parts. Only the digits of the two addresses leave a choice.
-/

namespace TransferLoad

open Text (Hex.lower)

namespace Wire

/-! ### Forms -/

section
variable {α β : Type}

/-- The reader takes exactly the forms of a value off the front, whatever follows them. -/
def Reads (reader : Reader α) (Form : α → Bytes → Prop) : Prop :=
  ∀ bytes a rest, reader bytes = .ok (a, rest) ↔ ∃ form, bytes = form ++ rest ∧ Form a form

theorem Reads.congr {reader : Reader α} {Form Form' : α → Bytes → Prop} (hreads : Reads reader Form)
    (hforms : ∀ a form, Form a form ↔ Form' a form) : Reads reader Form' := by
  intro bytes a rest
  rw [hreads bytes a rest]
  simp only [hforms]

theorem Reads.pure (a : α) : Reads (pure a) fun b form => b = a ∧ form = [] := by
  intro bytes b rest
  constructor
  · intro hread
    cases hread
    exact ⟨[], rfl, rfl, rfl⟩
  · rintro ⟨form, rfl, rfl, rfl⟩
    rfl

theorem bind_eq_ok_iff {reader : Reader α} {next : α → Reader β} {bytes rest : Bytes} {b : β} :
    (reader >>= next) bytes = .ok (b, rest) ↔
      ∃ a middle, reader bytes = .ok (a, middle) ∧ next a middle = .ok (b, rest) := by
  change (reader bytes >>= fun x => next x.1 x.2) = _ ↔ _
  cases reader bytes with
  | error cause => exact iff_of_false nofun (by rintro ⟨_, _, hread, -⟩; cases hread)
  | ok x =>
    constructor
    · intro hread
      exact ⟨x.1, x.2, rfl, hread⟩
    · rintro ⟨a, middle, hread, hnext⟩
      cases hread
      exact hnext

theorem Reads.bind {reader : Reader α} {next : α → Reader β} {Form : α → Bytes → Prop}
    {Next : α → β → Bytes → Prop} (hreads : Reads reader Form) (hnext : ∀ a, Reads (next a) (Next a)) :
    Reads (reader >>= next)
      fun b form => ∃ a first second, form = first ++ second ∧ Form a first ∧ Next a b second := by
  intro bytes b rest
  rw [bind_eq_ok_iff]
  constructor
  · rintro ⟨a, middle, hread, hthen⟩
    obtain ⟨first, rfl, hfirst⟩ := (hreads _ _ _).mp hread
    obtain ⟨second, rfl, hsecond⟩ := (hnext a _ _ _).mp hthen
    exact ⟨first ++ second, (List.append_assoc ..).symm, a, first, second, rfl, hfirst, hsecond⟩
  · rintro ⟨_, rfl, a, first, second, rfl, hfirst, hsecond⟩
    refine ⟨a, second ++ rest, (hreads _ _ _).mpr ⟨first, List.append_assoc .., hfirst⟩, ?_⟩
    exact (hnext a _ _ _).mpr ⟨second, rfl, hsecond⟩

end

/-! ### Rows and numbers -/

theorem reads_row (count : Nat) : Reads (row count) fun bytes form => form = bytes.val := by
  intro bytes a rest
  unfold row
  constructor
  · intro hread
    split at hread
    · cases hread
      exact ⟨_, (List.take_append_drop count bytes).symm, rfl⟩
    · cases hread
  · rintro ⟨_, rfl, rfl⟩
    have hcount : count ≤ (a.val ++ rest).length := by
      rw [List.length_append, a.property]
      omega
    rw [dif_pos hcount]
    congr 2
    · exact Subtype.ext (List.take_left' a.property)
    · exact List.drop_left' a.property

theorem reads_number (width : Nat) :
    Reads (number width) fun n form => n < Nat.pow 256 width ∧ form = Bytes.ofNatLE width n := by
  refine ((reads_row width).bind fun bytes => Reads.pure (Bytes.toNatLE bytes.val)).congr fun n form => ?_
  constructor
  · rintro ⟨bytes, _, _, rfl, rfl, rfl, rfl⟩
    have hform := Bytes.ofNatLE_toNatLE bytes.val
    have hbound := Bytes.toNatLE_lt bytes.val
    rw [bytes.property] at hform hbound
    exact ⟨hbound, by rw [List.append_nil, hform]⟩
  · rintro ⟨hn, rfl⟩
    refine ⟨⟨_, Bytes.length_ofNatLE width n⟩, _, [], (List.append_nil _).symm, rfl, ?_, rfl⟩
    exact (Bytes.toNatLE_ofNatLE hn).symm

/-! ### Texts and addresses -/

/-- Reads the rest of a text, its length being known. -/
def measured (length : Nat) : Reader String := fun bytes =>
  if length ≤ bytes.length then
    match Text.Utf8.decode (bytes.take length) with
    | .ok text => .ok (text, bytes.drop length)
    | .error cause => .error (.notText cause)
  else .error .textTooLong

theorem text_eq : text = number 8 >>= measured := by
  refine congrArg (number 8 >>= ·) (funext fun length => funext fun bytes => ?_)
  change (if length ≤ bytes.length then _ else _ : Reader String) bytes = _
  unfold measured
  split
  · change (match Text.Utf8.decode (bytes.take length) with
      | .ok text => Pure.pure text
      | .error cause => throw (.notText cause) : Reader String) (bytes.drop length) = _
    cases Text.Utf8.decode (bytes.take length) <;> rfl
  · rfl

theorem reads_measured (length : Nat) :
    Reads (measured length) fun text form => Text.Utf8.encode text = form ∧ form.length = length := by
  intro bytes text rest
  unfold measured
  constructor
  · intro hread
    split at hread
    · rename_i hlength
      split at hread
      · rename_i htext
        cases hread
        refine ⟨_, (List.take_append_drop length bytes).symm, Text.Utf8.decode_eq_ok_iff.mp htext, ?_⟩
        rw [List.length_take, Nat.min_eq_left hlength]
      · cases hread
    · cases hread
  · rintro ⟨_, rfl, rfl, rfl⟩
    rw [if_pos (by simp), List.take_left, List.drop_left, Text.Utf8.decode_encode]

theorem reads_text :
    Reads text fun text form =>
      (Text.Utf8.encode text).length < Nat.pow 256 8 ∧ form = counted (Text.Utf8.encode text) := by
  rw [text_eq]
  refine ((reads_number 8).bind reads_measured).congr fun text form => ?_
  constructor
  · rintro ⟨length, _, _, rfl, ⟨hlength, rfl⟩, rfl, rfl⟩
    exact ⟨hlength, rfl⟩
  · rintro ⟨hlength, rfl⟩
    exact ⟨_, _, _, rfl, ⟨hlength, rfl⟩, rfl, rfl⟩

/-- The forms of an address: its text, the digits of which are in either case, behind the text's length. -/
def AddressForm (a : Address) (form : Bytes) : Prop :=
  ∃ text : Bytes, text.map Hex.lower = Text.Utf8.encode a.render ∧ form = counted text

/-- Takes an address from a text that has been read. -/
def addressed (text : String) : Reader Address :=
  match Address.parse text with
  | .ok address => return address
  | .error cause => throw (.badAddress cause)

theorem reads_addressed (text : String) :
    Reads (addressed text) fun a form => Address.parse text = .ok a ∧ form = [] := by
  unfold addressed
  cases hresult : Address.parse text with
  | ok address => exact (Reads.pure address).congr fun a form => by simp [eq_comm]
  | error cause =>
    intro bytes a rest
    constructor
    · intro hread
      cases hread
    · rintro ⟨_, -, hok, -⟩
      cases hok

theorem reads_readAddress : Reads readAddress AddressForm := by
  change Reads (text >>= addressed) AddressForm
  refine (reads_text.bind reads_addressed).congr fun a form => ?_
  constructor
  · rintro ⟨text, _, _, rfl, ⟨-, rfl⟩, hok, rfl⟩
    exact ⟨_, Address.parse_eq_ok_iff.mp hok, List.append_nil _⟩
  · rintro ⟨bytes, hlower, rfl⟩
    obtain ⟨text, rfl⟩ := Address.exists_text_of_map_lower hlower
    have hlength : (Text.Utf8.encode text).length < Nat.pow 256 8 :=
      Address.length_of_map_lower hlower ▸ by decide
    exact ⟨text, _, [], (List.append_nil _).symm, ⟨hlength, rfl⟩, Address.parse_eq_ok_iff.mpr hlower, rfl⟩

/-! ### Intents and envelopes -/

/-- What stands behind the two addresses of an intent. -/
def fixedPart (i : Intent) : Bytes := amount i.amount ++ amount i.feePrice ++ word i.sequence ++ word i.chainId

def IntentForm (i : Intent) (form : Bytes) : Prop :=
  ∃ sender recipient, AddressForm i.sender sender ∧ AddressForm i.recipient recipient ∧
    form = sender ++ recipient ++ fixedPart i

theorem reads_readIntent : Reads readIntent IntentForm := by
  refine (reads_readAddress.bind fun sender => reads_readAddress.bind fun recipient =>
    (reads_number 16).bind fun amount => (reads_number 16).bind fun feePrice =>
    (reads_number 8).bind fun sequence => (reads_number 8).bind fun chainId =>
    Reads.pure _).congr fun i form => ?_
  constructor
  · rintro ⟨sender, own, _, rfl, hown, recipient, other, _, rfl, hother, n, _, _, rfl, ⟨hn, rfl⟩,
      fee, _, _, rfl, ⟨hfee, rfl⟩, sequence, _, _, rfl, ⟨hsequence, rfl⟩, chain, _, _, rfl, ⟨hchain, rfl⟩,
      rfl, rfl⟩
    refine ⟨own, other, hown, hother, ?_⟩
    simp only [fixedPart, amount, word, BitVec.toNat_ofNat, UInt64.toNat_ofNat', List.append_assoc,
      List.append_nil]
    rw [Nat.mod_eq_of_lt hn, Nat.mod_eq_of_lt hfee, Nat.mod_eq_of_lt hsequence, Nat.mod_eq_of_lt hchain]
  · rintro ⟨own, other, hown, hother, rfl⟩
    refine ⟨_, _, _, ?_, hown, _, _, _, rfl, hother, _, _, _, rfl, ⟨i.amount.isLt, rfl⟩, _, _, _, rfl,
      ⟨i.feePrice.isLt, rfl⟩, _, _, _, rfl, ⟨i.sequence.toNat_lt, rfl⟩, _, _, _, rfl,
      ⟨i.chainId.toNat_lt, rfl⟩, ?_, rfl⟩
    · simp only [fixedPart, amount, word, List.append_assoc, List.append_nil]
    · simp only [BitVec.ofNat_toNat, BitVec.setWidth_eq, UInt64.ofNat_toNat]

def EnvelopeForm (e : Envelope) (form : Bytes) : Prop :=
  ∃ intent, IntentForm e.intent intent ∧ e.signature.length < Nat.pow 256 8 ∧
    form = intent ++ e.publicKey.val ++ counted e.signature

theorem reads_readEnvelope : Reads readEnvelope EnvelopeForm := by
  refine (reads_readIntent.bind fun intent => (reads_row 32).bind fun publicKey =>
    (reads_number 8).bind fun length => (reads_row length).bind fun signature =>
    Reads.pure _).congr fun e form => ?_
  constructor
  · rintro ⟨intent, front, _, rfl, hfront, publicKey, _, _, rfl, rfl, length, _, _, rfl, ⟨hlength, rfl⟩,
      signature, _, _, rfl, rfl, rfl, rfl⟩
    refine ⟨front, hfront, ?_, ?_⟩
    · rw [signature.property]
      exact hlength
    · simp only [counted, signature.property, List.append_assoc, List.append_nil]
  · rintro ⟨front, hfront, hlength, rfl⟩
    refine ⟨_, _, _, ?_, hfront, _, _, _, rfl, rfl, _, _, _, rfl, ⟨hlength, rfl⟩, ⟨_, rfl⟩, _, _, rfl, rfl,
      rfl, rfl⟩
    simp only [counted, List.append_assoc, List.append_nil]

/-! ### The digits of the two addresses -/

/-- Whether the byte at this position of an envelope is a digit of one of the two addresses. Each address
takes 73 bytes: eight of the text's length, the letter and 64 digits. -/
def isDigitPosition (position : Nat) : Bool :=
  (9 ≤ position && position < 73) || (82 ≤ position && position < 146)

/-- The bytes with the digits of the two addresses in lower case; the first of them stands at `start`. -/
def lowerDigits (start : Nat) (bytes : Bytes) : Bytes :=
  bytes.mapIdx fun i byte => if isDigitPosition (start + i) then Hex.lower byte else byte

theorem lowerDigits_append (start : Nat) (front back : Bytes) :
    lowerDigits start (front ++ back) =
      lowerDigits start front ++ lowerDigits (start + front.length) back := by
  simp only [lowerDigits, List.mapIdx_append, Nat.add_assoc, Nat.add_comm front.length]

theorem lowerDigits_of_digits {start : Nat} {bytes : Bytes}
    (hdigits : ∀ i < bytes.length, isDigitPosition (start + i) = true) :
    lowerDigits start bytes = bytes.map Hex.lower := by
  refine List.ext_getElem (by simp [lowerDigits]) fun i _ hi => ?_
  rw [List.length_map] at hi
  simp only [lowerDigits, List.getElem_mapIdx, List.getElem_map, hdigits i hi, ↓reduceIte]

theorem lowerDigits_of_others {start : Nat} {bytes : Bytes}
    (hothers : ∀ i < bytes.length, isDigitPosition (start + i) = false) : lowerDigits start bytes = bytes := by
  refine List.ext_getElem (by simp [lowerDigits]) fun i _ hi => ?_
  simp only [lowerDigits, List.getElem_mapIdx, hothers i hi, Bool.false_eq_true, ↓reduceIte]

@[simp] theorem length_lowerDigits (start : Nat) (bytes : Bytes) :
    (lowerDigits start bytes).length = bytes.length := by
  simp [lowerDigits]

/-- What stands before the digits of an address: the length of its text and the letter. -/
def addressFront : Bytes := Bytes.ofNatLE 8 Address.textLength ++ [Address.letter]

theorem counted_eq_front_append {text : Bytes} (hlength : text.length = Address.textLength)
    (hletter : text.head? = some Address.letter) : counted text = addressFront ++ text.tail := by
  obtain ⟨rest, rfl⟩ := List.head?_eq_some_iff.mp hletter
  rw [counted, hlength, addressFront, List.append_assoc]
  rfl

theorem address_eq (a : Address) :
    address a = addressFront ++ Text.Utf8.encodeChars (Text.Hex.encodeChars a.raw.val) := by
  rw [address, counted_eq_front_append (Address.length_encode_render a) (by rw [Address.encode_render]; rfl),
    Address.encode_render]
  rfl

theorem addressForm_iff {a : Address} {form : Bytes} :
    AddressForm a form ↔ ∃ digits : Bytes,
      digits.map Hex.lower = Text.Utf8.encodeChars (Text.Hex.encodeChars a.raw.val) ∧
      form = addressFront ++ digits := by
  constructor
  · rintro ⟨text, hlower, rfl⟩
    have hlength := Address.length_of_map_lower hlower
    rw [Address.encode_render] at hlower
    obtain ⟨byte, digits, rfl, hbyte, hdigits⟩ := List.map_eq_cons_iff.mp hlower
    obtain rfl := Address.lower_eq_letter_iff.mp hbyte
    exact ⟨digits, hdigits, counted_eq_front_append hlength rfl⟩
  · rintro ⟨digits, hdigits, rfl⟩
    have htext : (Address.letter :: digits).map Hex.lower = Text.Utf8.encode a.render := by
      rw [List.map_cons, hdigits, Address.encode_render, Address.lower_eq_letter_iff.mpr rfl]
    exact ⟨_, htext, (counted_eq_front_append (Address.length_of_map_lower htext) rfl).symm⟩

/-- Each address begins nine bytes before 64 digit positions. -/
theorem lowerDigits_front_append {start : Nat} (hstart : start = 0 ∨ start = 73) {front digits : Bytes}
    (hfront : front.length = 9) (hdigits : digits.length = 64) :
    lowerDigits start (front ++ digits) = front ++ digits.map Hex.lower := by
  rw [lowerDigits_append, lowerDigits_of_others, lowerDigits_of_digits]
  all_goals
    intro i hi
    unfold isDigitPosition
    rcases hstart with rfl | rfl <;> simp <;> omega

theorem addressForm_iff_lowerDigits {a : Address} {start : Nat} (hstart : start = 0 ∨ start = 73)
    {form : Bytes} : AddressForm a form ↔ lowerDigits start form = address a := by
  have hwritten : (Text.Utf8.encodeChars (Text.Hex.encodeChars a.raw.val)).length = 64 := by
    rw [Text.Hex.length_encodeChars_encodeChars, a.raw.property]
  rw [addressForm_iff, address_eq]
  constructor
  · rintro ⟨digits, hdigits, rfl⟩
    have hlength := congrArg List.length hdigits
    rw [List.length_map, hwritten] at hlength
    rw [lowerDigits_front_append hstart rfl hlength, hdigits]
  · intro heq
    have hlength := congrArg List.length heq
    rw [length_lowerDigits, List.length_append, hwritten] at hlength
    have hlength : form.length = 73 := hlength
    rw [← List.take_append_drop 9 form, lowerDigits_front_append hstart
      (by rw [List.length_take]; omega) (by rw [List.length_drop]; omega)] at heq
    obtain ⟨hfront, hdigits⟩ := List.append_inj heq (by rw [List.length_take, hlength]; rfl)
    exact ⟨form.drop 9, hdigits, by rw [← hfront, List.take_append_drop]⟩

theorem length_address (a : Address) : (address a).length = 73 := by
  rw [address_eq, List.length_append, Text.Hex.length_encodeChars_encodeChars, a.raw.property]
  rfl

/-- What stands behind the two addresses of an envelope. -/
def body (e : Envelope) : Bytes := fixedPart e.intent ++ e.publicKey.val ++ counted e.signature

theorem encode_eq (e : Envelope) :
    e.encode = address e.intent.sender ++ (address e.intent.recipient ++ body e) := by
  simp only [Envelope.encode, Intent.encode, body, fixedPart, List.append_assoc]

theorem lowerDigits_addresses_append {sender recipient rest : Bytes} (hsender : sender.length = 73)
    (hrecipient : recipient.length = 73) :
    lowerDigits 0 (sender ++ (recipient ++ rest)) =
      lowerDigits 0 sender ++ (lowerDigits 73 recipient ++ rest) := by
  have hrest : lowerDigits (0 + 73 + 73) rest = rest := by
    refine lowerDigits_of_others fun i _ => ?_
    unfold isDigitPosition
    simp
    omega
  rw [lowerDigits_append, lowerDigits_append, hsender, hrecipient, hrest]

theorem lowerDigits_encode (e : Envelope) : lowerDigits 0 e.encode = e.encode := by
  have hwritten : ∀ a : Address, AddressForm a (address a) := fun a =>
    addressForm_iff.mpr ⟨_, Text.Hex.map_lower_encodeChars a.raw.val, address_eq a⟩
  rw [encode_eq, lowerDigits_addresses_append (length_address _) (length_address _),
    (addressForm_iff_lowerDigits (.inl rfl)).mp (hwritten _),
    (addressForm_iff_lowerDigits (.inr rfl)).mp (hwritten _)]

theorem envelopeForm_iff {e : Envelope} {form : Bytes} :
    EnvelopeForm e form ↔ e.signature.length < Nat.pow 256 8 ∧ lowerDigits 0 form = e.encode := by
  have hlowered : ∀ {a start form}, (start = 0 ∨ start = 73) → AddressForm a form →
      lowerDigits start form = address a ∧ form.length = 73 := by
    intro a start form hstart hform
    have heq := (addressForm_iff_lowerDigits hstart).mp hform
    exact ⟨heq, by rw [← length_lowerDigits start, heq, length_address]⟩
  constructor
  · rintro ⟨_, ⟨sender, recipient, hsender, hrecipient, rfl⟩, hfits, rfl⟩
    obtain ⟨hsender, hlength⟩ := hlowered (.inl rfl) hsender
    obtain ⟨hrecipient, hlength'⟩ := hlowered (.inr rfl) hrecipient
    refine ⟨hfits, ?_⟩
    rw [encode_eq, ← hsender, ← hrecipient, ← lowerDigits_addresses_append hlength hlength']
    simp only [body, List.append_assoc]
  · rintro ⟨hfits, heq⟩
    have hlength := congrArg List.length heq
    rw [length_lowerDigits, encode_eq, List.length_append, List.length_append, length_address,
      length_address] at hlength
    have hsplit : form = form.take 73 ++ ((form.drop 73).take 73 ++ (form.drop 73).drop 73) := by
      rw [List.take_append_drop, List.take_append_drop]
    have hsender : (form.take 73).length = 73 := by
      rw [List.length_take]
      omega
    have hrecipient : ((form.drop 73).take 73).length = 73 := by
      rw [List.length_take, List.length_drop]
      omega
    rw [hsplit, lowerDigits_addresses_append hsender hrecipient, encode_eq] at heq
    obtain ⟨hfirst, heq⟩ := List.append_inj heq (by rw [length_lowerDigits, hsender, length_address])
    obtain ⟨hsecond, hbody⟩ := List.append_inj heq (by rw [length_lowerDigits, hrecipient, length_address])
    refine ⟨_, ⟨_, _, (addressForm_iff_lowerDigits (.inl rfl)).mpr hfirst,
      (addressForm_iff_lowerDigits (.inr rfl)).mpr hsecond, rfl⟩, hfits, ?_⟩
    conv_lhs => rw [hsplit, hbody]
    simp only [body, List.append_assoc]

end Wire

/-! ### Envelopes -/

namespace Envelope

/-- The signature's length can be written in eight bytes, as that of any signature in memory can. -/
def Fits (e : Envelope) : Prop := e.signature.length < Nat.pow 256 8

instance (e : Envelope) : Decidable e.Fits := inferInstanceAs (Decidable (_ < _))

theorem decode_eq_ok_iff {bytes : Bytes} {e : Envelope} :
    decode bytes = .ok e ↔ e.Fits ∧ ∃ form rest, bytes = form ++ rest ∧ Wire.lowerDigits 0 form = e.encode := by
  have hread : decode bytes = .ok e ↔ ∃ rest, Wire.readEnvelope bytes = .ok (e, rest) := by
    unfold decode
    cases Wire.readEnvelope bytes with
    | error cause => simp
    | ok read => simp [Prod.ext_iff]
  rw [hread]
  simp only [Wire.reads_readEnvelope _ _ _, Wire.envelopeForm_iff]
  constructor
  · rintro ⟨rest, form, hbytes, hfits, hform⟩
    exact ⟨hfits, form, rest, hbytes, hform⟩
  · rintro ⟨hfits, form, rest, hbytes, hform⟩
    exact ⟨rest, form, hbytes, hfits, hform⟩

theorem decode_encode_append {e : Envelope} (hfits : e.Fits) (rest : Bytes) :
    decode (e.encode ++ rest) = .ok e :=
  decode_eq_ok_iff.mpr ⟨hfits, e.encode, rest, rfl, Wire.lowerDigits_encode e⟩

theorem eq_of_encode_initial {e other : Envelope} (hfits : e.Fits) (hother : other.Fits)
    (hinitial : e.encode <+: other.encode) : e = other := by
  obtain ⟨rest, hrest⟩ := hinitial
  have hread := decode_encode_append hfits rest
  rw [hrest, ← List.append_nil other.encode, decode_encode_append hother] at hread
  exact (Except.ok.inj hread).symm

/-- An envelope is read from the bytes that begin with its encoding, the digits of its addresses in either
case, and from no others; all else fails to decode. So the encoding determines the envelope, and none is
the beginning of another. -/
theorem decode_exact :
    (∀ bytes e, decode bytes = .ok e ↔ e.Fits ∧ ∃ form rest, bytes = form ++ rest ∧
      form.length = e.encode.length ∧ Wire.lowerDigits 0 form = e.encode) ∧
    (∀ bytes, (∃ e, decode bytes = .ok e) ∨ ∃ detail, decode bytes = .error (.decode detail)) ∧
    (∀ (e : Envelope) rest, e.Fits → decode (e.encode ++ rest) = .ok e) ∧
    (∀ e other : Envelope, e.Fits → other.Fits → e.encode = other.encode → e = other) ∧
    (∀ e other : Envelope, e.Fits → other.Fits → e.encode <+: other.encode → e = other) := by
  refine ⟨fun bytes e => ?_, fun bytes => ?_, fun e rest hfits => decode_encode_append hfits rest, ?_,
    fun e other => eq_of_encode_initial⟩
  · rw [decode_eq_ok_iff]
    constructor
    · rintro ⟨hfits, form, rest, hbytes, hform⟩
      exact ⟨hfits, form, rest, hbytes, by rw [← hform, Wire.length_lowerDigits], hform⟩
    · rintro ⟨hfits, form, rest, hbytes, -, hform⟩
      exact ⟨hfits, form, rest, hbytes, hform⟩
  · unfold decode
    cases Wire.readEnvelope bytes with
    | ok read => exact .inl ⟨read.1, rfl⟩
    | error cause => exact .inr ⟨_, rfl⟩
  · intro e other hfits hother heq
    exact eq_of_encode_initial hfits hother (heq ▸ List.prefix_refl _)

/-- An envelope with letters among the digits of its addresses. -/
def sample : Envelope where
  intent := {
    sender := ⟨⟨List.replicate 32 0xAB, rfl⟩⟩, recipient := ⟨⟨List.replicate 32 0xCD, rfl⟩⟩
    amount := 1, feePrice := 2, sequence := 3, chainId := 4 }
  publicKey := ⟨List.replicate 32 0xEF, rfl⟩
  signature := [5, 6]

/-- The digits of the second address of `sample` in upper case, and a byte behind the envelope. -/
theorem decode_exact_sample :
    let form := sample.encode.take 82 ++ (List.replicate 32 [67, 68]).flatten ++ sample.encode.drop 146
    form ≠ sample.encode ∧ decode (form ++ [7]) = .ok sample ∧ decode (sample.encode ++ [7]) = .ok sample := by
  intro form
  refine ⟨by decide +kernel, ?_, decode_exact.2.2.1 sample [7] (by decide)⟩
  exact (decode_exact.1 _ sample).mpr ⟨by decide, form, [7], rfl, by decide +kernel, by decide +kernel⟩

end Envelope

end TransferLoad
