import TransferLoad.Net.IpAddress
import TransferLoad.Net.Percent
import TransferLoad.Net.Punycode
import TransferLoad.Text.Lowercase

/-!
# Hosts

A host is a name or a numeric address. In URLs of the web a name is read without regard to case, may be
percent encoded, and has to be an address if it ends in a number; in other URLs it is kept as it is.
-/

namespace TransferLoad.Net

inductive Host where
  | name (text : List Char)
  | ipv4 (address : Nat)
  | ipv6 (groups : List Nat)
  deriving Repr, DecidableEq

namespace Host

def render : Host → List Char
  | name text => text
  | ipv4 address => Ipv4.render address
  | ipv6 groups => '[' :: Ipv6.render groups ++ [']']

/-- Characters that no host has. -/
def isForbidden (c : Char) : Bool := c.toNat = 0 || "\t\n\r #/:<>?@[\\]^|".toList.contains c

/-- Characters that no host of the web has. -/
def isForbiddenInName (c : Char) : Bool := isForbidden c || c.toNat < 0x20 || c.toNat = 0x7F || c = '%'

/-- What a label beyond ASCII begins with. -/
def foreignMark : List Char := "xn--".toList

/-- A label in ASCII. -/
def asciiLabel (label : List Char) : List Char :=
  if label.all (·.toNat < 128) then label else foreignMark ++ Punycode.encode label

/-- The ASCII form of a name in lower case. -/
def asciiName (chars : List Char) : List Char :=
  ['.'].intercalate ((splitAt '.' (chars.flatMap Text.lowercaseChar)).map asciiLabel)

/-- An address of 128 bits behind its opening bracket. -/
def bracketed? (chars : List Char) : Option Host :=
  if chars.getLast? = some ']' then (Ipv6.parse? chars.dropLast).map .ipv6 else none

def parseWeb? (chars : List Char) : Option Host :=
  match chars with
  | '[' :: rest => bracketed? rest
  | _ =>
    match Text.Utf8.decode (Percent.decode chars) with
    | .error _ => none
    | .ok decoded =>
      let name := asciiName decoded.toList
      if name = [] ∨ name.any isForbiddenInName then none
      else if Ipv4.endsInNumber name then (Ipv4.parseLoose? name).map .ipv4
      else some (.name name)

/-- A host of any other URL; it may be empty. -/
def parseOther? (chars : List Char) : Option Host :=
  match chars with
  | '[' :: rest => bracketed? rest
  | _ =>
    if chars.any isForbidden then none else some (.name (Percent.encode Percent.isControl chars))

end Host

end TransferLoad.Net
