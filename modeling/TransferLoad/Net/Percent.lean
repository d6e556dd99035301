import TransferLoad.Text.Hex
import TransferLoad.Text.Utf8

/-!
# Percent encoding

In a URL some characters stand for themselves, and each byte of the others is written as a percent sign
with two upper-case digits. Which characters are written so depends on the part of the URL. A percent
sign that is already there is left alone, so encoding twice changes nothing more.
-/

namespace TransferLoad.Net.Percent

/-- Control characters and everything beyond ASCII: never written as themselves. -/
def isControl (c : Char) : Bool := c.toNat < 0x20 || 0x7F ≤ c.toNat

def inFragment (c : Char) : Bool := isControl c || " \"<>`".toList.contains c

def inPath (c : Char) : Bool := inFragment c || "#?\x7b\x7d".toList.contains c

def inCredentials (c : Char) : Bool := inPath c || "/:;=@[\\]^|".toList.contains c

def inQuery (c : Char) : Bool := isControl c || " \"#<>".toList.contains c

/-- The queries of the schemes of the web also leave out the apostrophe. -/
def inWebQuery (c : Char) : Bool := inQuery c || c = Char.ofNat 39

/-- A byte as a percent sign and two digits. -/
def ofByte (byte : UInt8) : List Char :=
  ['%', (Text.Hex.digit (byte.toNat / 16)).toUpper, (Text.Hex.digit (byte.toNat % 16)).toUpper]

def encode (inClass : Char → Bool) (chars : List Char) : List Char :=
  chars.flatMap fun c => if inClass c then (Text.Utf8.encodeChar c).flatMap ofByte else [c]

/-- The bytes that a text stands for; a percent sign without two digits is one itself. -/
def decodeBytes : Bytes → Bytes
  | [] => []
  | byte :: rest =>
    if byte.toNat = '%'.toNat then
      match rest with
      | high :: low :: after =>
        match Text.Hex.value? high, Text.Hex.value? low with
        | some h, some l => UInt8.ofNat (16 * h + l) :: decodeBytes after
        | _, _ => byte :: decodeBytes (high :: low :: after)
      | _ => byte :: rest
    else byte :: decodeBytes rest

def decode (chars : List Char) : Bytes := decodeBytes (Text.Utf8.encodeChars chars)

end TransferLoad.Net.Percent
