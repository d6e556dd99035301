import TransferLoad.Address
import TransferLoad.Crypto.Ed25519
import TransferLoad.Text.Blank

/-!
# Accounts

An account can sign transfers and counts them: each transfer carries the next number of its sender.
Taking a number moves the counter on by one, and after the last 64-bit number comes zero.
-/

namespace TransferLoad

structure SequenceCounter where
  next : UInt64 := 0
  deriving Repr, DecidableEq

def SequenceCounter.draw (c : SequenceCounter) : UInt64 × SequenceCounter := (c.next, ⟨c.next + 1⟩)

def SequenceCounter.reset (_ : SequenceCounter) (next : UInt64) : SequenceCounter := ⟨next⟩

structure Account where
  key : Crypto.Ed25519.SigningKey
  sequence : SequenceCounter

namespace Account

def ofSeed (seed : Bytes) : Account := ⟨.ofSeed seed, {}⟩

def address (a : Account) : Address := ⟨a.key.publicKey⟩

inductive KeyError where
  | notHex (cause : Text.Hex.HexError)
  | wrongLength
  deriving Repr, DecidableEq

def KeyError.message : KeyError → String
  | notHex cause => "invalid hex: " ++ cause.message
  | wrongLength => "must be 32 bytes (64 hex chars)"

/-- The 32 secret bytes in a hexadecimal text, with blanks around it and any number of `0x` in front. -/
def secretOfText (text : String) : Except KeyError Bytes :=
  let digits := Text.dropRepeated ['0', 'x'] (Text.trim text.toList)
  match Text.Hex.decode (Text.Utf8.encodeChars digits) with
  | .error cause => .error (.notHex cause)
  | .ok secret => if secret.length = 32 then .ok secret else .error .wrongLength

/-- The account of a secret given as text, with its counter at zero. -/
def ofSecretText (text : String) : Except Failure Account :=
  match secretOfText text with
  | .ok secret => .ok (ofSeed secret)
  | .error cause => .error (.invalidKey cause.message)

/-- Takes the account's next number. -/
def draw (a : Account) : UInt64 × Account :=
  (a.sequence.draw.1, { a with sequence := a.sequence.draw.2 })

def resetSequence (a : Account) (next : UInt64) : Account :=
  { a with sequence := a.sequence.reset next }

/-- An account without its secret, for people. -/
def describe (a : Account) : String :=
  "Account \x7b address: Address([" ++
    ", ".intercalate (a.address.raw.val.map fun byte => toString byte.toNat) ++
    "]), next_sequence: " ++ toString a.sequence.next.toNat ++ ", .. \x7d"

def generate (secrets : Nat → Bytes) (count : Nat) : List Account :=
  (List.range count).map fun i => ofSeed (secrets i)

end Account

end TransferLoad
