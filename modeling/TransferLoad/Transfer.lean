import TransferLoad.Account
import TransferLoad.Crypto.Blake3

/-!
# Transfers

A transfer starts as an intent and leaves as bytes: the intent, the public key of its sender and a
signature of the intent's bytes. The bytes alone decide the identifier.

The encoding has fixed widths and no names. Numbers have their least significant byte first, an
address is its text behind the text's length, and the signature stands behind its length.
-/

namespace TransferLoad

abbrev Amount := BitVec 128

structure Intent where
  sender : Address
  recipient : Address
  amount : Amount
  feePrice : Amount
  sequence : UInt64
  chainId : UInt64
  deriving DecidableEq

structure Envelope where
  intent : Intent
  publicKey : Bytes32
  signature : Bytes
  deriving DecidableEq

/-! ### Encoding -/

namespace Wire

def word (n : UInt64) : Bytes := Bytes.ofNatLE 8 n.toNat

def amount (a : Amount) : Bytes := Bytes.ofNatLE 16 a.toNat

def counted (bytes : Bytes) : Bytes := Bytes.ofNatLE 8 bytes.length ++ bytes

def address (a : Address) : Bytes := counted (Text.Utf8.encode a.render)

end Wire

def Intent.encode (i : Intent) : Bytes :=
  Wire.address i.sender ++ Wire.address i.recipient ++ Wire.amount i.amount ++
    Wire.amount i.feePrice ++ Wire.word i.sequence ++ Wire.word i.chainId

def Envelope.encode (e : Envelope) : Bytes :=
  e.intent.encode ++ e.publicKey.val ++ Wire.counted e.signature

/-! ### Decoding -/

inductive WireError where
  /-- The bytes end inside a number or before the last byte of a row of bytes. -/
  | unexpectedEnd
  | textTooLong
  | notText (cause : Text.Utf8.Utf8Error)
  | badAddress (cause : Failure)
  deriving Repr, DecidableEq

def WireError.message : WireError → String
  | unexpectedEnd => "io error: unexpected end of file"
  | textTooLong => "io error: "
  | notText cause => "string is not valid utf8: " ++ cause.message
  | badAddress cause => cause.message

namespace Wire

abbrev Reader (α : Type) := StateT Bytes (Except WireError) α

def row (count : Nat) : Reader { bytes : Bytes // bytes.length = count } := fun bytes =>
  if h : count ≤ bytes.length then .ok (⟨bytes.take count, by simp [h]⟩, bytes.drop count)
  else .error .unexpectedEnd

def number (width : Nat) : Reader Nat := do return Bytes.toNatLE (← row width).val

def text : Reader String := do
  let length ← number 8
  let bytes ← get
  if length ≤ bytes.length then
    set (bytes.drop length)
    match Text.Utf8.decode (bytes.take length) with
    | .ok text => return text
    | .error cause => throw (.notText cause)
  else throw .textTooLong

def readAddress : Reader Address := do
  match Address.parse (← text) with
  | .ok address => return address
  | .error cause => throw (.badAddress cause)

def readIntent : Reader Intent := do
  let sender ← readAddress
  let recipient ← readAddress
  let amount ← number 16
  let feePrice ← number 16
  let sequence ← number 8
  let chainId ← number 8
  return {
    sender, recipient, amount := .ofNat 128 amount, feePrice := .ofNat 128 feePrice
    sequence := .ofNat sequence, chainId := .ofNat chainId }

def readEnvelope : Reader Envelope := do
  let intent ← readIntent
  let publicKey ← row 32
  let signature ← row (← number 8)
  return { intent, publicKey, signature := signature.val }

end Wire

/-- Reads an envelope; bytes behind it are left alone. -/
def Envelope.decode (bytes : Bytes) : Except Failure Envelope :=
  match Wire.readEnvelope bytes with
  | .ok (envelope, _) => .ok envelope
  | .error cause => .error (.decode cause.message)

/-- Whether the signature is one of the intent under the enclosed key. -/
def Envelope.verify (e : Envelope) : Bool :=
  Crypto.Ed25519.verify e.publicKey e.intent.encode e.signature

/-! ### Signing -/

structure SignedPayload where
  bytes : Bytes
  identifier : String
  deriving DecidableEq

def SignedPayload.ofBytes (bytes : Bytes) : SignedPayload :=
  ⟨bytes, "0x" ++ Text.Hex.encode (Crypto.Blake3.digest bytes)⟩

def SignedPayload.hex (p : SignedPayload) : String := Text.Hex.encode p.bytes

abbrev Signer := Intent → Crypto.Ed25519.SigningKey → Except Failure SignedPayload

/-- Signs with the sender's own key; any other key is refused. -/
def ed25519Signer : Signer := fun intent key =>
  if key.publicKey = intent.sender.raw then
    .ok (.ofBytes (Envelope.encode
      { intent, publicKey := key.publicKey, signature := key.sign intent.encode }))
  else
    .error (.signing ("credential does not belong to sender " ++ intent.sender.render))

end TransferLoad
