import Mathlib
import TransferLoad.Artifact.Writer

/-!
# What writers take

A writer that does not complain has taken all the bytes, after those it had before; one that complains
has taken the first of them and not all. A buffered device keeps to this for the bytes that it was given,
whether it has handed them on or not. What its device holds lags behind by a buffer at most, and stays as
it is for good once the device has refused a byte.
-/

namespace TransferLoad

theorem Text.Utf8.encode_join (texts : List String) :
    encode (String.join texts) = texts.flatMap encode := by
  rw [encode, String.toList_join, encodeChars, List.flatMap_assoc]
  rfl

/-! ### Any writer -/

namespace Writer

variable {ω : Type} [Writer ω] {taken : ω → Bytes} {w w' : ω}

/-- What a writer has taken grows by the bytes of each write, or by some of the first of them when the
write fails. -/
structure Takes (taken : ω → Bytes) : Prop where
  of_ok : ∀ {w w' : ω} {bytes : Bytes}, write w bytes = (.ok (), w') → taken w' = taken w ++ bytes
  of_error : ∀ {w w' : ω} {bytes : Bytes} {cause : IoError}, write w bytes = (.error cause, w') →
    ∃ count < bytes.length, taken w' = taken w ++ bytes.take count
  of_flush : ∀ w : ω, taken (flush w).2 = taken w

/-- A writer in a good state writes and flushes without complaint and stays in a good state. -/
structure NeverFails (good : ω → Prop) : Prop where
  write : ∀ {w : ω}, good w → ∀ bytes, ∃ w', Writer.write w bytes = (.ok (), w') ∧ good w'
  flush : ∀ {w : ω}, good w → ∃ w', Writer.flush w = (.ok (), w') ∧ good w'

theorem Takes.writeTexts_ok (htakes : Takes taken) {texts : List String}
    (hwrite : writeTexts w texts = (.ok (), w')) :
    taken w' = taken w ++ Text.Utf8.encode (String.join texts) := by
  rw [Text.Utf8.encode_join]
  induction texts generalizing w with
  | nil =>
    cases hwrite
    rw [List.flatMap_nil, List.append_nil]
  | cons text rest ih =>
    rw [writeTexts] at hwrite
    split at hwrite
    · rename_i w₁ hfirst
      rw [ih hwrite, htakes.of_ok hfirst, List.flatMap_cons, List.append_assoc]
    · cases hwrite

theorem Takes.writeTexts_error (htakes : Takes taken) {texts : List String} {cause : IoError}
    (hwrite : writeTexts w texts = (.error cause, w')) :
    ∃ count < (Text.Utf8.encode (String.join texts)).length,
      taken w' = taken w ++ (Text.Utf8.encode (String.join texts)).take count := by
  rw [Text.Utf8.encode_join]
  induction texts generalizing w with
  | nil => cases hwrite
  | cons text rest ih =>
    rw [List.flatMap_cons]
    rw [writeTexts] at hwrite
    split at hwrite
    · rename_i w₁ hfirst
      obtain ⟨count, hcount, htaken⟩ := ih hwrite
      refine ⟨(Text.Utf8.encode text).length + count, ?_, ?_⟩
      · rw [List.length_append]
        omega
      · rw [htaken, htakes.of_ok hfirst, List.take_length_add_append, List.append_assoc]
    · rename_i w₁ hfirst
      cases hwrite
      obtain ⟨count, hcount, htaken⟩ := htakes.of_error hfirst
      refine ⟨count, ?_, ?_⟩
      · rw [List.length_append]
        omega
      · rw [htaken, List.take_append_of_le_length (Nat.le_of_lt hcount)]

theorem NeverFails.writeTexts {good : ω → Prop} (hnever : NeverFails good) (hgood : good w)
    (texts : List String) : ∃ w', Writer.writeTexts w texts = (.ok (), w') ∧ good w' := by
  induction texts generalizing w with
  | nil => exact ⟨w, rfl, hgood⟩
  | cons text rest ih =>
    obtain ⟨w₁, hfirst, hgood₁⟩ := hnever.write hgood (Text.Utf8.encode text)
    obtain ⟨w', hrest, hgood'⟩ := ih hgood₁
    refine ⟨w', ?_, hgood'⟩
    rw [Writer.writeTexts, hfirst]
    exact hrest

/-- What every write keeps, whether it fails or not, is kept by writes one after the other. -/
theorem writeTexts_keeps {P : ω → Prop} (hstep : ∀ w bytes, P w → P (write w bytes).2)
    (texts : List String) (hstart : P w) : P (writeTexts w texts).2 := by
  induction texts generalizing w with
  | nil => exact hstart
  | cons text rest ih =>
    have hfirst := hstep w (Text.Utf8.encode text) hstart
    rw [writeTexts]
    split
    · rename_i w₁ hwrite
      rw [hwrite] at hfirst
      exact ih hfirst
    · rename_i w₁ hwrite
      rw [hwrite] at hfirst
      exact hfirst

/-- What every failing write leads to holds after writes of which one failed. -/
theorem of_writeTexts_error {P : ω → Prop}
    (hfail : ∀ {w w' : ω} {bytes : Bytes} {cause : IoError}, write w bytes = (.error cause, w') → P w')
    {texts : List String} {cause : IoError} (hwrite : writeTexts w texts = (.error cause, w')) : P w' := by
  induction texts generalizing w with
  | nil => cases hwrite
  | cons text rest ih =>
    rw [writeTexts] at hwrite
    split at hwrite
    · exact ih hwrite
    · rename_i w₁ hfirst
      cases hwrite
      exact hfail hfirst

end Writer

/-! ### Devices -/

namespace Device

variable {d d' : Device} {bytes : Bytes}

/-- A device that takes no byte any more. -/
def Sealed (d : Device) : Prop := d.room = some 0

theorem content_of_write (hwrite : d.write bytes = (.ok (), d')) : d'.content = d.content ++ bytes := by
  unfold write at hwrite
  split at hwrite
  · cases hwrite
    rfl
  · split at hwrite
    · cases hwrite
      rfl
    · cases hwrite

/-- A device that refuses a byte refuses all that come after it. -/
theorem sealed_of_write {cause : IoError} (hwrite : d.write bytes = (.error cause, d')) :
    d'.Sealed ∧ ∃ count < bytes.length, d'.content = d.content ++ bytes.take count := by
  unfold write at hwrite
  split at hwrite
  · cases hwrite
  · rename_i room hroom
    split at hwrite
    · cases hwrite
    · rename_i hshort
      cases hwrite
      exact ⟨rfl, room, Nat.lt_of_not_le hshort, rfl⟩

theorem write_of_sealed (hsealed : d.Sealed) (bytes : Bytes) : (d.write bytes).2 = d := by
  obtain ⟨content, room, refusal⟩ := d
  cases hsealed
  unfold write
  by_cases hempty : bytes.length ≤ 0
  · obtain rfl : bytes = [] := List.length_eq_zero_iff.mp (Nat.le_zero.mp hempty)
    simp
  · simp [hempty]

theorem content_write_cases (d : Device) (bytes : Bytes) :
    ∃ count ≤ bytes.length, (d.write bytes).2.content = d.content ++ bytes.take count := by
  rcases hwrite : d.write bytes with ⟨cause | _, d'⟩
  · obtain ⟨-, count, hcount, hcontent⟩ := sealed_of_write hwrite
    exact ⟨count, Nat.le_of_lt hcount, hcontent⟩
  · refine ⟨bytes.length, Nat.le_refl _, ?_⟩
    rw [List.take_length]
    exact content_of_write hwrite

theorem content_write_grows (d : Device) (bytes : Bytes) : d.content <+: (d.write bytes).2.content := by
  obtain ⟨count, -, hcontent⟩ := d.content_write_cases bytes
  exact ⟨bytes.take count, hcontent.symm⟩

theorem takes : Writer.Takes Device.content where
  of_ok := content_of_write
  of_error := fun hwrite => (sealed_of_write hwrite).2
  of_flush := fun _ => rfl

/-- A device with room for any amount of bytes never complains. -/
theorem neverFails : Writer.NeverFails fun d : Device => d.room = none where
  write := by
    intro d hroom bytes
    refine ⟨{ d with content := d.content ++ bytes }, ?_, hroom⟩
    change d.write bytes = _
    rw [Device.write, hroom]
  flush := fun {d} hroom => ⟨d, rfl, hroom⟩

end Device

/-! ### Buffered devices -/

namespace BufferedDevice

variable {b b' : BufferedDevice} {bytes : Bytes}

/-- All bytes that a buffered device has been given, handed on or not. -/
def given (b : BufferedDevice) : Bytes := b.device.content ++ b.pending

theorem drain_ok (hdrain : b.drain = (.ok (), b')) : b'.device.content = b.given ∧ b'.pending = [] := by
  unfold drain at hdrain
  rcases hwrite : b.device.write b.pending with ⟨result, device⟩
  simp only [hwrite, Prod.mk.injEq] at hdrain
  obtain ⟨rfl, rfl⟩ := hdrain
  have hcontent := Device.content_of_write hwrite
  refine ⟨hcontent, ?_⟩
  rw [hcontent, List.length_append, Nat.add_sub_cancel_left, List.drop_length]

/-- What the device does not take stays in the buffer. -/
theorem given_drain (b : BufferedDevice) : b.drain.2.given = b.given := by
  obtain ⟨count, hcount, hcontent⟩ := b.device.content_write_cases b.pending
  rcases hwrite : b.device.write b.pending with ⟨result, device⟩
  rw [hwrite] at hcontent
  have htaken : device.content.length - b.device.content.length = count := by
    rw [hcontent, List.length_append, Nat.add_sub_cancel_left, List.length_take, Nat.min_eq_left hcount]
  simp only [drain, hwrite, given, htaken]
  rw [hcontent, List.append_assoc, List.take_append_drop]

theorem sealed_of_drain {cause : IoError} (hdrain : b.drain = (.error cause, b')) : b'.device.Sealed := by
  unfold drain at hdrain
  rcases hwrite : b.device.write b.pending with ⟨result, device⟩
  simp only [hwrite, Prod.mk.injEq] at hdrain
  obtain ⟨rfl, rfl⟩ := hdrain
  exact (Device.sealed_of_write hwrite).1

/-- A write makes room if it has to, and then puts the bytes into the buffer, or past it when it is
empty. -/
theorem write_cases (b : BufferedDevice) (bytes : Bytes) :
    (∃ cause b', b.drain = (.error cause, b') ∧ 0 < bytes.length ∧ b.write bytes = (.error cause, b')) ∨
    ∃ ready, (ready = b ∨ b.drain = (.ok (), ready)) ∧
      (bytes.length < bufferSize ∧
          (b.pending.length ≤ bufferSize → ready.pending.length + bytes.length ≤ bufferSize) ∧
          b.write bytes = (.ok (), { ready with pending := ready.pending ++ bytes }) ∨
        bufferSize ≤ bytes.length ∧ ready.pending = [] ∧
          b.write bytes = ((ready.device.write bytes).1, { ready with device := (ready.device.write bytes).2 })) := by
  by_cases hfull : bufferSize - b.pending.length < bytes.length
  · rcases hdrain : b.drain with ⟨cause | _, ready⟩
    · refine Or.inl ⟨cause, ready, rfl, Nat.zero_lt_of_lt hfull, ?_⟩
      simp only [write, hfull, ↓reduceIte, hdrain]
    · refine Or.inr ⟨ready, Or.inr rfl, ?_⟩
      have hempty := (drain_ok hdrain).2
      by_cases hshort : bytes.length < bufferSize
      · refine Or.inl ⟨hshort, fun _ => ?_, ?_⟩
        · rw [hempty, List.length_nil]
          omega
        · simp only [write, hfull, ↓reduceIte, hdrain, hshort]
      · refine Or.inr ⟨Nat.le_of_not_lt hshort, hempty, ?_⟩
        simp only [write, hfull, ↓reduceIte, hdrain, hshort]
  · refine Or.inr ⟨b, Or.inl rfl, ?_⟩
    by_cases hshort : bytes.length < bufferSize
    · refine Or.inl ⟨hshort, fun _ => by omega, ?_⟩
      simp only [write, hfull, ↓reduceIte, hshort]
    · refine Or.inr ⟨Nat.le_of_not_lt hshort, ?_, ?_⟩
      · apply List.length_eq_zero_iff.mp
        simp only [bufferSize] at hfull hshort
        omega
      · simp only [write, hfull, ↓reduceIte, hshort]

theorem given_ready {ready : BufferedDevice} (hready : ready = b ∨ b.drain = (.ok (), ready)) :
    ready.given = b.given := by
  rcases hready with rfl | hdrain
  · rfl
  · have hgiven := b.given_drain
    rwa [hdrain] at hgiven

theorem given_past_buffer (hempty : b.pending = []) (device : Device) (more : Bytes)
    (hcontent : device.content = b.device.content ++ more) :
    ({ b with device } : BufferedDevice).given = b.given ++ more := by
  simp only [given, hempty, List.append_nil, hcontent]

/-- A buffered device complains only when its device has refused a byte. -/
theorem sealed_of_write {cause : IoError} (hwrite : b.write bytes = (.error cause, b')) :
    b'.device.Sealed ∧ ∃ count < bytes.length, b'.given = b.given ++ bytes.take count := by
  rcases b.write_cases bytes with ⟨cause', b₁, hdrain, hpos, herror⟩ | ⟨ready, hready, hbuffered | hpast⟩
  · rw [herror] at hwrite
    cases hwrite
    have hgiven := b.given_drain
    rw [hdrain] at hgiven
    refine ⟨sealed_of_drain hdrain, 0, hpos, ?_⟩
    rw [hgiven, List.take_zero, List.append_nil]
  · obtain ⟨-, -, hok⟩ := hbuffered
    rw [hok] at hwrite
    cases hwrite
  · obtain ⟨-, hempty, hresult⟩ := hpast
    rcases hdevice : ready.device.write bytes with ⟨result, device⟩
    simp only [hresult, hdevice, Prod.mk.injEq] at hwrite
    obtain ⟨rfl, rfl⟩ := hwrite
    obtain ⟨hsealed, count, hcount, hcontent⟩ := Device.sealed_of_write hdevice
    refine ⟨hsealed, count, hcount, ?_⟩
    rw [← given_ready hready]
    exact given_past_buffer hempty device _ hcontent

theorem given_of_write (hwrite : b.write bytes = (.ok (), b')) : b'.given = b.given ++ bytes := by
  rcases b.write_cases bytes with ⟨cause, b₁, -, -, herror⟩ | ⟨ready, hready, hbuffered | hpast⟩
  · rw [herror] at hwrite
    cases hwrite
  · obtain ⟨-, -, hok⟩ := hbuffered
    rw [hok] at hwrite
    cases hwrite
    rw [← given_ready hready, given, given, List.append_assoc]
  · obtain ⟨-, hempty, hresult⟩ := hpast
    rcases hdevice : ready.device.write bytes with ⟨result, device⟩
    simp only [hresult, hdevice, Prod.mk.injEq] at hwrite
    obtain ⟨rfl, rfl⟩ := hwrite
    rw [← given_ready hready]
    exact given_past_buffer hempty device bytes (Device.content_of_write hdevice)

theorem takes : Writer.Takes BufferedDevice.given where
  of_ok := given_of_write
  of_error := fun hwrite => (sealed_of_write hwrite).2
  of_flush := given_drain

/-- What has become of a buffered device after anything was done to it. -/
structure Continues (b b' : BufferedDevice) : Prop where
  grows : b.device.content <+: b'.device.content
  stays : b.device.Sealed → b'.device = b.device
  fits : b.pending.length ≤ bufferSize → b'.pending.length ≤ bufferSize

theorem Continues.refl (b : BufferedDevice) : b.Continues b :=
  ⟨List.prefix_rfl, fun _ => rfl, fun hfits => hfits⟩

theorem Continues.trans {b₁ b₂ b₃ : BufferedDevice} (h : b₁.Continues b₂) (h' : b₂.Continues b₃) :
    b₁.Continues b₃ where
  grows := h.grows.trans h'.grows
  stays := by
    intro hsealed
    have hsame := h.stays hsealed
    rw [← hsame] at hsealed ⊢
    exact h'.stays hsealed
  fits := fun hfits => h'.fits (h.fits hfits)

theorem continues_drain (b : BufferedDevice) : b.Continues b.drain.2 where
  grows := b.device.content_write_grows b.pending
  stays := fun hsealed => Device.write_of_sealed hsealed b.pending
  fits := by
    intro hfits
    change (b.pending.drop _).length ≤ bufferSize
    rw [List.length_drop]
    omega

theorem continues_write (b : BufferedDevice) (bytes : Bytes) : b.Continues (b.write bytes).2 := by
  have hdrained := b.continues_drain
  rcases b.write_cases bytes with ⟨cause, b₁, hdrain, -, herror⟩ | ⟨ready, hready, hcases⟩
  · rw [herror]
    rwa [hdrain] at hdrained
  · have hcontinues : b.Continues ready := by
      rcases hready with rfl | hdrain
      · exact Continues.refl _
      · rwa [hdrain] at hdrained
    rcases hcases with ⟨-, hroom, hok⟩ | ⟨-, hempty, hresult⟩
    · rw [hok]
      refine ⟨hcontinues.grows, hcontinues.stays, fun hfits => ?_⟩
      rw [List.length_append]
      exact hroom hfits
    · rw [hresult]
      refine hcontinues.trans ⟨?_, ?_, fun hfits => hfits⟩
      · exact ready.device.content_write_grows bytes
      · exact fun hsealed => Device.write_of_sealed hsealed bytes

theorem drain_never_fails (hroom : b.device.room = none) :
    ∃ b', b.drain = (.ok (), b') ∧ b'.device.room = none := by
  obtain ⟨device, hwrite, hroom'⟩ := Device.neverFails.write hroom b.pending
  change b.device.write b.pending = _ at hwrite
  unfold drain
  rw [hwrite]
  exact ⟨_, rfl, hroom'⟩

/-- A buffered device never complains if its device never does. -/
theorem neverFails : Writer.NeverFails fun b : BufferedDevice => b.device.room = none where
  write := by
    intro b hroom bytes
    obtain ⟨b₁, hdrain, hroom₁⟩ := drain_never_fails hroom
    change ∃ b', b.write bytes = _ ∧ _
    rcases b.write_cases bytes with ⟨cause, b₂, hdrain', -, -⟩ | ⟨ready, hready, hcases⟩
    · rw [hdrain] at hdrain'
      cases hdrain'
    · have hroom' : ready.device.room = none := by
        rcases hready with rfl | hdrain'
        · exact hroom
        · rw [hdrain] at hdrain'
          cases hdrain'
          exact hroom₁
      rcases hcases with ⟨-, -, hok⟩ | ⟨-, -, hresult⟩
      · exact ⟨_, hok, hroom'⟩
      · obtain ⟨device, hwrite, hroom''⟩ := Device.neverFails.write hroom' bytes
        change ready.device.write bytes = _ at hwrite
        rw [hwrite] at hresult
        exact ⟨_, hresult, hroom''⟩
  flush := drain_never_fails

theorem content_close {b : BufferedDevice} (hempty : b.pending = []) :
    b.close.content = b.device.content := by
  unfold close drain Device.write
  rw [hempty]
  cases b.device.room with
  | none => exact List.append_nil _
  | some room => exact List.append_nil _

end BufferedDevice

end TransferLoad
