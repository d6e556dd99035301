import TransferLoad.Json.Number
import TransferLoad.Text.Hex
import TransferLoad.Text.Utf8

/-!
# JSON

A JSON text as it is written: the members of an object in order, with repetitions, numbers digit by
digit, and texts that cannot be read marked as such, since a part that nobody asks for may contain
them.
-/

namespace TransferLoad

inductive Json where
  | null
  | boolean (value : Bool)
  | number (value : Json.Number)
  /-- Without a value, a text with bytes or escapes that name no character. -/
  | text (value : Option String)
  | array (items : List Json)
  | object (members : List (Option String × Json))

namespace Json

/-! ### Reading -/

abbrev Reader (α : Type) := Bytes → Option (α × Bytes)

/-- The number of an ASCII character. -/
def byteOf (c : Char) : UInt8 := UInt8.ofNat c.toNat

def isSpace (byte : UInt8) : Bool := byte = 32 || byte = 10 || byte = 9 || byte = 13

def skipSpace (bytes : Bytes) : Bytes := bytes.dropWhile isSpace

def isDigit (byte : UInt8) : Bool := 48 ≤ byte.toNat && byte.toNat ≤ 57

/-- Digits at the front, perhaps none. -/
def digits (bytes : Bytes) : List Nat × Bytes :=
  ((bytes.takeWhile isDigit).map fun byte => byte.toNat - 48, bytes.dropWhile isDigit)

/-- At least one digit. -/
def someDigits : Reader (List Nat) := fun bytes =>
  match digits bytes with
  | ([], _) => none
  | (found, rest) => some (found, rest)

/-- The digits before the point; a zero stands alone. -/
def wholeDigits : Reader (List Nat) := fun bytes =>
  match digits bytes with
  | ([], _) => none
  | (0 :: _ :: _, _) => none
  | (found, rest) => some (found, rest)

def fractionPart : Reader (Option (List Nat)) := fun bytes =>
  match bytes with
  | [] => some (none, [])
  | byte :: rest =>
    if byte = byteOf '.' then (someDigits rest).map fun (found, rest) => (some found, rest)
    else some (none, bytes)

def exponentPart : Reader (Option Exponent) := fun bytes =>
  match bytes with
  | [] => some (none, [])
  | letter :: rest =>
    if letter = byteOf 'e' ∨ letter = byteOf 'E' then
      let (negative, rest) := match rest with
        | [] => (false, [])
        | sign :: after =>
          if sign = byteOf '-' then (true, after)
          else if sign = byteOf '+' then (false, after)
          else (false, rest)
      (someDigits rest).map fun (found, rest) => (some ⟨negative, found⟩, rest)
    else some (none, bytes)

/-- A number without its sign. -/
def unsignedNumber (negative : Bool) : Reader Number := fun bytes => do
  let (whole, bytes) ← wholeDigits bytes
  let (fraction, bytes) ← fractionPart bytes
  let (exponent, bytes) ← exponentPart bytes
  return ({ negative, whole, fraction, exponent }, bytes)

def hexUnit : Reader Nat := fun bytes =>
  match bytes with
  | a :: b :: c :: d :: rest => do
    let a ← Text.Hex.value? a
    let b ← Text.Hex.value? b
    let c ← Text.Hex.value? c
    let d ← Text.Hex.value? d
    return (((a * 16 + b) * 16 + c) * 16 + d, rest)
  | _ => none

inductive Piece where
  | byte (value : UInt8)
  | character (c : Char)
  /-- A 16-bit unit written in hexadecimal. -/
  | unit (value : Nat)
  deriving Repr, DecidableEq

def shortEscape? (letter : UInt8) : Option Char :=
  match Char.ofNat letter.toNat with
  | '"' => some '"'
  | '\\' => some '\\'
  | '/' => some '/'
  | 'b' => some (Char.ofNat 8)
  | 'f' => some (Char.ofNat 12)
  | 'n' => some '\n'
  | 'r' => some '\r'
  | 't' => some '\t'
  | _ => none

def pieces : (fuel : Nat) → Reader (List Piece)
  | 0, _ => none
  | _ + 1, [] => none
  | fuel + 1, byte :: rest =>
    if byte = byteOf '"' then some ([], rest)
    else if byte = byteOf '\\' then
      match rest with
      | [] => none
      | letter :: rest =>
        if letter = byteOf 'u' then do
          let (value, rest) ← hexUnit rest
          let (more, rest) ← pieces fuel rest
          return (.unit value :: more, rest)
        else do
          let c ← shortEscape? letter
          let (more, rest) ← pieces fuel rest
          return (.character c :: more, rest)
    else if byte.toNat < 32 then none
    else do
      let (more, rest) ← pieces fuel rest
      return (.byte byte :: more, rest)

/-- The bytes of the text that the pieces spell. A unit of a pair has to stand before its partner. -/
def spell? : List Piece → Option Bytes
  | [] => some []
  | .byte value :: rest => (spell? rest).map (value :: ·)
  | .character c :: rest => (spell? rest).map (Text.Utf8.encodeChar c ++ ·)
  | .unit high :: rest =>
    if 0xDC00 ≤ high ∧ high < 0xE000 then none
    else if 0xD800 ≤ high ∧ high < 0xDC00 then
      match rest with
      | .unit low :: rest =>
        if 0xDC00 ≤ low ∧ low < 0xE000 then
          let number := (high - 0xD800) * 0x400 + (low - 0xDC00) + 0x10000
          (spell? rest).map (Text.Utf8.encodeChar (Char.ofNat number) ++ ·)
        else none
      | _ => none
    else (spell? rest).map (Text.Utf8.encodeChar (Char.ofNat high) ++ ·)

def textBody : Reader (Option String) := fun bytes => do
  let (found, rest) ← pieces (bytes.length + 1) bytes
  return ((spell? found).bind fun spelled => (Text.Utf8.decode spelled).toOption, rest)

def word (expected : String) : Reader Unit := fun bytes =>
  let wanted := Text.Utf8.encode expected
  if wanted.isPrefixOf bytes then some ((), bytes.drop wanted.length) else none

mutual

def value : (fuel : Nat) → Reader Json
  | 0, _ => none
  | fuel + 1, bytes =>
    match skipSpace bytes with
    | [] => none
    | byte :: rest =>
      if byte = byteOf '{' then
        match skipSpace rest with
        | [] => none
        | next :: after =>
          if next = byteOf '}' then some (.object [], after)
          else (members fuel rest).map fun (found, rest) => (.object found, rest)
      else if byte = byteOf '[' then
        match skipSpace rest with
        | [] => none
        | next :: after =>
          if next = byteOf ']' then some (.array [], after)
          else (items fuel rest).map fun (found, rest) => (.array found, rest)
      else if byte = byteOf '"' then (textBody rest).map fun (found, rest) => (.text found, rest)
      else if byte = byteOf '-' then
        (unsignedNumber true rest).map fun (found, rest) => (.number found, rest)
      else if isDigit byte then
        (unsignedNumber false (byte :: rest)).map fun (found, rest) => (.number found, rest)
      else if byte = byteOf 't' then (word "rue" rest).map fun (_, rest) => (.boolean true, rest)
      else if byte = byteOf 'f' then (word "alse" rest).map fun (_, rest) => (.boolean false, rest)
      else if byte = byteOf 'n' then (word "ull" rest).map fun (_, rest) => (.null, rest)
      else none

def items : (fuel : Nat) → Reader (List Json)
  | 0, _ => none
  | fuel + 1, bytes =>
    match value fuel bytes with
    | none => none
    | some (first, rest) =>
      match skipSpace rest with
      | [] => none
      | next :: after =>
        if next = byteOf ',' then (items fuel after).map fun (more, rest) => (first :: more, rest)
        else if next = byteOf ']' then some ([first], after)
        else none

def members : (fuel : Nat) → Reader (List (Option String × Json))
  | 0, _ => none
  | fuel + 1, bytes =>
    match skipSpace bytes with
    | [] => none
    | quote :: rest =>
      if quote = byteOf '"' then
        match textBody rest with
        | none => none
        | some (name, rest) =>
          match skipSpace rest with
          | [] => none
          | colon :: rest =>
            if colon = byteOf ':' then
              match value fuel rest with
              | none => none
              | some (first, rest) =>
                match skipSpace rest with
                | [] => none
                | next :: after =>
                  if next = byteOf ',' then
                    (members fuel after).map fun (more, rest) => ((name, first) :: more, rest)
                  else if next = byteOf '}' then some ([(name, first)], after)
                  else none
            else none
      else none

end

/-- Reads bytes that hold one value and nothing else but blanks. Each byte takes three steps at most. -/
def parse? (bytes : Bytes) : Option Json :=
  match value (3 * bytes.length + 3) bytes with
  | some (found, rest) => if skipSpace rest = [] then some found else none
  | none => none

end Json

end TransferLoad
