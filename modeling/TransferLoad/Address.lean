import TransferLoad.Text.Hex
import TransferLoad.Text.Utf8
import TransferLoad.Failure

/-!
# Addresses

An account is named by 32 bytes. Their text is the letter `i` and 64 lower-case hexadecimal digits;
digits of either case are read. The letter is looked for first, then the text is measured in bytes,
and only then are the digits read.
-/

namespace TransferLoad

structure Address where
  raw : Bytes32
  deriving DecidableEq

namespace Address

/-- Bytes of an address text: the letter and two digits for each byte. -/
def textLength : Nat := 65

def render (a : Address) : String := "i" ++ Text.Hex.encode a.raw.val

instance : ToString Address := ⟨render⟩

inductive ParseError where
  | missingLetter
  | wrongLength (length : Nat)
  | notHex (cause : Text.Hex.HexError)
  deriving Repr, DecidableEq

def ParseError.message : ParseError → String
  | missingLetter => "missing 'i' prefix"
  | wrongLength length => "expected " ++ toString textLength ++ " characters, got " ++ toString length
  | notHex cause => cause.message

def parseChars : List Char → Except ParseError Address
  | 'i' :: digits =>
    let bytes := Text.Utf8.encodeChars digits
    if bytes.length + 1 = textLength then
      match Text.Hex.decode bytes with
      | .error cause => .error (.notHex cause)
      | .ok raw => if h : raw.length = 32 then .ok ⟨⟨raw, h⟩⟩ else .error (.wrongLength raw.length)
    else .error (.wrongLength (bytes.length + 1))
  | _ => .error .missingLetter

/-- Reads an address; the failure repeats the text. -/
def parse (text : String) : Except Failure Address :=
  match parseChars text.toList with
  | .ok address => .ok address
  | .error cause => .error (.invalidAddress (text ++ ": " ++ cause.message))

end Address

end TransferLoad
