import TransferLoad.Bytes

/-!
# UTF-8

Text leaves the program as bytes and comes back as bytes that may not be text at all. Reading is
strict, naming the place and the length of the first fault, or lenient, with the replacement
character in the place of each longest invalid piece.
-/

namespace TransferLoad.Text.Utf8

/-! ### Writing -/

def encodeChar (c : Char) : Bytes :=
  let n := c.toNat
  if n < 0x80 then [UInt8.ofNat n]
  else if n < 0x800 then [UInt8.ofNat (0xC0 + n / 64), UInt8.ofNat (0x80 + n % 64)]
  else if n < 0x10000 then
    [UInt8.ofNat (0xE0 + n / 4096), UInt8.ofNat (0x80 + n / 64 % 64), UInt8.ofNat (0x80 + n % 64)]
  else
    [UInt8.ofNat (0xF0 + n / 262144), UInt8.ofNat (0x80 + n / 4096 % 64),
     UInt8.ofNat (0x80 + n / 64 % 64), UInt8.ofNat (0x80 + n % 64)]

def encodeChars (chars : List Char) : Bytes := chars.flatMap encodeChar

def encode (text : String) : Bytes := encodeChars text.toList

/-! ### Reading one character -/

inductive Piece where
  | scalar (c : Char) (further : Nat)
  | invalid (further : Nat)
  | truncated
  deriving Repr, DecidableEq

def isContinuation (byte : UInt8) : Bool := 0x80 ≤ byte.toNat && byte.toNat < 0xC0

/-- The bytes that may follow a lead byte: overlong forms, surrogates and numbers past the last
character are ruled out by the second byte already. -/
def secondRange (lead : Nat) : Nat × Nat :=
  if lead = 0xE0 then (0xA0, 0xBF)
  else if lead = 0xED then (0x80, 0x9F)
  else if lead = 0xF0 then (0x90, 0xBF)
  else if lead = 0xF4 then (0x80, 0x8F)
  else (0x80, 0xBF)

def secondFits (lead : Nat) (byte : UInt8) : Bool :=
  (secondRange lead).1 ≤ byte.toNat && byte.toNat ≤ (secondRange lead).2

/-- The first character of `lead :: rest`, or how long its invalid start is. `further` counts the
bytes beside the lead byte. -/
def first (lead : UInt8) (rest : Bytes) : Piece :=
  let l := lead.toNat
  if l < 0x80 then .scalar (Char.ofNat l) 0
  else if l < 0xC2 then .invalid 0
  else if l < 0xE0 then
    match rest with
    | [] => .truncated
    | b :: _ =>
      if isContinuation b then .scalar (Char.ofNat ((l - 0xC0) * 64 + b.toNat % 64)) 1 else .invalid 0
  else if l < 0xF0 then
    match rest with
    | [] => .truncated
    | b :: rest =>
      if !secondFits l b then .invalid 0
      else
        match rest with
        | [] => .truncated
        | c :: _ =>
          if isContinuation c then
            .scalar (Char.ofNat ((l - 0xE0) * 4096 + b.toNat % 64 * 64 + c.toNat % 64)) 2
          else .invalid 1
  else if l < 0xF5 then
    match rest with
    | [] => .truncated
    | b :: rest =>
      if !secondFits l b then .invalid 0
      else
        match rest with
        | [] => .truncated
        | c :: rest =>
          if !isContinuation c then .invalid 1
          else
            match rest with
            | [] => .truncated
            | d :: _ =>
              if isContinuation d then
                .scalar (Char.ofNat ((l - 0xF0) * 262144 + b.toNat % 64 * 4096 + c.toNat % 64 * 64
                  + d.toNat % 64)) 3
              else .invalid 2
  else .invalid 0

/-! ### Reading a text -/

/-- Where text stops being valid; without a length, because the bytes end in the middle of a
character. -/
structure Utf8Error where
  index : Nat
  length : Option Nat
  deriving Repr, DecidableEq

def Utf8Error.message (e : Utf8Error) : String :=
  match e.length with
  | some n => "invalid utf-8 sequence of " ++ toString n ++ " bytes from index " ++ toString e.index
  | none => "incomplete utf-8 byte sequence from index " ++ toString e.index

def decodeFrom (index : Nat) : Bytes → Except Utf8Error (List Char)
  | [] => .ok []
  | lead :: rest =>
    match first lead rest with
    | .scalar c further => (c :: ·) <$> decodeFrom (index + 1 + further) (rest.drop further)
    | .invalid further => .error ⟨index, some (1 + further)⟩
    | .truncated => .error ⟨index, none⟩
termination_by bytes => bytes.length
decreasing_by simp only [List.length_drop, List.length_cons]; omega

def decode (bytes : Bytes) : Except Utf8Error String :=
  String.ofList <$> decodeFrom 0 bytes

def replacement : Char := Char.ofNat 0xFFFD

/-- Lenient reading. -/
def decodeLossyChars : Bytes → List Char
  | [] => []
  | lead :: rest =>
    match first lead rest with
    | .scalar c further => c :: decodeLossyChars (rest.drop further)
    | .invalid further => replacement :: decodeLossyChars (rest.drop further)
    | .truncated => [replacement]
termination_by bytes => bytes.length
decreasing_by all_goals simp only [List.length_drop, List.length_cons]; omega

def decodeLossy (bytes : Bytes) : String := String.ofList (decodeLossyChars bytes)

end TransferLoad.Text.Utf8
