import TransferLoad.Bytes
import TransferLoad.Text.Quoted

/-!
# Hexadecimal text

Two lower-case digits for each byte, the high half first. Reading works on the bytes of a text and
takes digits of either case; it names the first byte that is no digit and its position.
-/

namespace TransferLoad.Text.Hex

def digit (n : Nat) : Char := "0123456789abcdef".toList.getD n '0'

def value? (byte : UInt8) : Option Nat :=
  let n := byte.toNat
  if 48 ≤ n ∧ n ≤ 57 then some (n - 48)
  else if 97 ≤ n ∧ n ≤ 102 then some (n - 87)
  else if 65 ≤ n ∧ n ≤ 70 then some (n - 55)
  else none

def encodeChars : Bytes → List Char
  | [] => []
  | byte :: rest => digit (byte.toNat / 16) :: digit (byte.toNat % 16) :: encodeChars rest

def encode (bytes : Bytes) : String := String.ofList (encodeChars bytes)

inductive HexError where
  | oddLength
  | invalidDigit (byte : UInt8) (position : Nat)
  deriving Repr, DecidableEq

/-- A byte that is no digit is shown as the character with its number. -/
def HexError.message : HexError → String
  | oddLength => "Odd number of digits"
  | invalidDigit byte position =>
    "Invalid character " ++ Quoted.char (Char.ofNat byte.toNat) ++ " at position " ++ toString position

/-- Reads digit pairs, the first of which stands at the given position. -/
def decodePairs (position : Nat) : Bytes → Except HexError Bytes
  | [] => .ok []
  | [_] => .error .oddLength
  | high :: low :: rest =>
    match value? high with
    | none => .error (.invalidDigit high position)
    | some h =>
      match value? low with
      | none => .error (.invalidDigit low (position + 1))
      | some l => (UInt8.ofNat (16 * h + l) :: ·) <$> decodePairs (position + 2) rest

/-- An odd count of digits is found before any digit is looked at. -/
def decode (text : Bytes) : Except HexError Bytes :=
  if text.length % 2 = 1 then .error .oddLength else decodePairs 0 text

@[simp] theorem length_encodeChars (bytes : Bytes) : (encodeChars bytes).length = 2 * bytes.length := by
  induction bytes with
  | nil => rfl
  | cons byte rest ih => simp only [encodeChars, List.length_cons, ih]; omega

end TransferLoad.Text.Hex
