import TransferLoad.Bytes
import TransferLoad.Failure
import TransferLoad.Text.Utf8

/-!
# Writers

Where bytes go. A writer takes all the bytes it is given or fails; after a failure it may have taken
some of them. A device takes bytes as long as it has room. A buffered device collects bytes in memory
and hands them on when the buffer is full, when it is flushed, and when it is closed, so that a
failure of the device shows only then.
-/

namespace TransferLoad

class Writer (ω : Type) where
  write : ω → Bytes → Except IoError Unit × ω
  flush : ω → Except IoError Unit × ω

namespace Writer

variable {ω : Type} [Writer ω]

/-- Writes pieces of text one after the other, up to the first that fails. -/
def writeTexts (w : ω) : List String → Except IoError Unit × ω
  | [] => (.ok (), w)
  | text :: rest =>
    match write w (Text.Utf8.encode text) with
    | (.ok (), w) => writeTexts w rest
    | (.error cause, w) => (.error cause, w)

end Writer

/-! ### Devices -/

structure Device where
  content : Bytes := []
  /-- How many more bytes there is room for; without a number, any amount. -/
  room : Option Nat := none
  /-- The complaint when there is no more room. -/
  refusal : IoError := .noSpace
  deriving Repr, DecidableEq

/-- A device without room for all the bytes takes those it has room for and then fails. -/
def Device.write (d : Device) (bytes : Bytes) : Except IoError Unit × Device :=
  match d.room with
  | none => (.ok (), { d with content := d.content ++ bytes })
  | some room =>
    if bytes.length ≤ room then
      (.ok (), { d with content := d.content ++ bytes, room := some (room - bytes.length) })
    else
      (.error d.refusal, { d with content := d.content ++ bytes.take room, room := some 0 })

instance : Writer Device where
  write := Device.write
  flush d := (.ok (), d)

/-! ### Buffered devices -/

/-- Bytes that fit into the buffer. -/
def bufferSize : Nat := 8192

structure BufferedDevice where
  device : Device
  /-- Bytes that the device has not been given yet. -/
  pending : Bytes := []
  deriving Repr, DecidableEq

namespace BufferedDevice

/-- Hands the buffer on; what the device does not take stays in the buffer. -/
def drain (b : BufferedDevice) : Except IoError Unit × BufferedDevice :=
  let (result, device) := b.device.write b.pending
  let taken := device.content.length - b.device.content.length
  (result, { device, pending := b.pending.drop taken })

/-- Puts bytes into the buffer, or past it when they would fill it alone. The buffer is handed on
first when it cannot hold the bytes as well. -/
def write (b : BufferedDevice) (bytes : Bytes) : Except IoError Unit × BufferedDevice :=
  let (result, b) := if bufferSize - b.pending.length < bytes.length then b.drain else (.ok (), b)
  match result with
  | .error cause => (.error cause, b)
  | .ok () =>
    if bytes.length < bufferSize then (.ok (), { b with pending := b.pending ++ bytes })
    else
      let (result, device) := b.device.write bytes
      (result, { b with device })

/-- What the device holds after the buffer has been handed on a last time. -/
def close (b : BufferedDevice) : Device := b.drain.2.device

end BufferedDevice

instance : Writer BufferedDevice where
  write := BufferedDevice.write
  flush := BufferedDevice.drain

end TransferLoad
