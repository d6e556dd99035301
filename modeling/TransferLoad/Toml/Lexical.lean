import TransferLoad.Decimal.Reading
import TransferLoad.Settings.Tree
import TransferLoad.Text.Hex

/-!
# TOML: texts, numbers and dates

The parts of a TOML document that stand on their own. Every reader takes its part off the front of the
characters and gives the rest, or fails.
-/

namespace TransferLoad.Toml

abbrev Reader (α : Type) := List Char → Option (α × List Char)

/-! ### Blanks and comments -/

def isInlineSpace (c : Char) : Bool := c = ' ' || c = '\t'

def skipInline (chars : List Char) : List Char := chars.dropWhile isInlineSpace

/-- A character that may stand in a comment: anything but controls, the tab excepted. -/
def isCommentChar (c : Char) : Bool := c = '\t' || (32 ≤ c.toNat && c.toNat ≠ 127)

/-- A comment, if there is one, up to the end of the line. -/
def skipComment : List Char → List Char
  | '#' :: rest => rest.dropWhile isCommentChar
  | chars => chars

def lineEnd : Reader Unit
  | '\n' :: rest => some ((), rest)
  | '\r' :: '\n' :: rest => some ((), rest)
  | _ => none

/-- Blanks, comments and line ends, in any order. -/
def skipLines : (fuel : Nat) → List Char → List Char
  | 0, chars => chars
  | fuel + 1, chars =>
    let chars' := skipComment (skipInline chars)
    match lineEnd chars' with
    | some (_, rest) => skipLines fuel rest
    | none => chars'

/-! ### Texts -/

def codePoint (count : Nat) : Reader Char := fun chars =>
  let digits := (chars.take count).map fun c => Text.Hex.value? (UInt8.ofNat c.toNat)
  let ascii := (chars.take count).all fun c => c.toNat < 128
  if ascii ∧ digits.length = count ∧ digits.all Option.isSome then
    let n := digits.foldl (fun n digit => 16 * n + digit.getD 0) 0
    if n < 0xD800 ∨ (0xDFFF < n ∧ n < 0x110000) then some (Char.ofNat n, chars.drop count) else none
  else none

def escaped : Reader Char
  | 'b' :: rest => some (Char.ofNat 8, rest)
  | 't' :: rest => some ('\t', rest)
  | 'n' :: rest => some ('\n', rest)
  | 'f' :: rest => some (Char.ofNat 12, rest)
  | 'r' :: rest => some ('\r', rest)
  | '"' :: rest => some ('"', rest)
  | '\\' :: rest => some ('\\', rest)
  | 'u' :: rest => codePoint 4 rest
  | 'U' :: rest => codePoint 8 rest
  | _ => none

def singleQuote : Char := Char.ofNat 39

def basicText : (fuel : Nat) → Reader (List Char)
  | 0, _ => none
  | _ + 1, [] => none
  | _ + 1, '"' :: rest => some ([], rest)
  | fuel + 1, '\\' :: rest => do
    let (c, rest) ← escaped rest
    let (more, rest) ← basicText fuel rest
    return (c :: more, rest)
  | fuel + 1, c :: rest =>
    if isCommentChar c then (basicText fuel rest).map fun (more, rest) => (c :: more, rest) else none

/-- A text between single quotes, behind the first of them, in which nothing is escaped. -/
def literalText (chars : List Char) : Option (List Char × List Char) :=
  let body := chars.takeWhile fun c => isCommentChar c && c != singleQuote
  match chars.drop body.length with
  | c :: rest => if c = singleQuote then some (body, rest) else none
  | [] => none

/-- The quotes at the end of a text of several lines: three close it, and one or two more before them
belong to the text. -/
def closing? (quote : Char) (chars : List Char) : Option (List Char × List Char) :=
  let count := (chars.takeWhile (· = quote)).length
  if count < 3 then none
  else some (List.replicate (min (count - 3) 2) quote, chars.drop (min count 5))

/-- Blanks and line ends, in any order. -/
def skipBlank : List Char → List Char
  | '\r' :: '\n' :: rest => skipBlank rest
  | c :: rest => if isInlineSpace c || c = '\n' then skipBlank rest else c :: rest
  | [] => []

def skipContinuation (rest : List Char) : Option (List Char) :=
  (lineEnd (skipInline rest)).map fun (_, rest) => skipBlank rest

def longText (quote : Char) (escapes : Bool) : (fuel : Nat) → Reader (List Char)
  | 0, _ => none
  | fuel + 1, chars =>
    match closing? quote chars with
    | some found => some found
    | none =>
      match chars with
      | [] => none
      | '\r' :: '\n' :: rest | '\n' :: rest =>
        (longText quote escapes fuel rest).map fun (more, rest) => ('\n' :: more, rest)
      | c :: rest =>
        if escapes && c = '\\' then
          match skipContinuation rest with
          | some rest => longText quote escapes fuel rest
          | none => do
            let (c, rest) ← escaped rest
            let (more, rest) ← longText quote escapes fuel rest
            return (c :: more, rest)
        else if isCommentChar c then
          (longText quote escapes fuel rest).map fun (more, rest) => (c :: more, rest)
        else none

/-- The first line end of a text of several lines does not belong to it. -/
def dropFirstLineEnd (chars : List Char) : List Char :=
  match lineEnd chars with
  | some (_, rest) => rest
  | none => chars

def text : Reader String := fun chars =>
  match chars with
  | '"' :: '"' :: '"' :: rest =>
    (longText '"' true (rest.length + 1) (dropFirstLineEnd rest)).map fun (found, rest) =>
      (String.ofList found, rest)
  | '"' :: rest =>
    (basicText (rest.length + 1) rest).map fun (found, rest) => (String.ofList found, rest)
  | a :: b :: c :: rest =>
    if a = singleQuote ∧ b = singleQuote ∧ c = singleQuote then
      (longText singleQuote false (rest.length + 1) (dropFirstLineEnd rest)).map fun (found, rest) =>
        (String.ofList found, rest)
    else if a = singleQuote then
      (literalText (b :: c :: rest)).map fun (found, rest) => (String.ofList found, rest)
    else none
  | a :: rest =>
    if a = singleQuote then (literalText rest).map fun (found, rest) => (String.ofList found, rest)
    else none
  | [] => none

/-! ### Keys -/

def isBareChar (c : Char) : Bool := c.isAlphanum || c = '_' || c = '-'

def simpleKey : Reader String := fun chars =>
  let bare := chars.takeWhile isBareChar
  if !bare.isEmpty then some (String.ofList bare, chars.drop bare.length)
  else
    match chars with
    | '"' :: rest =>
      (basicText (rest.length + 1) rest).map fun (found, rest) => (String.ofList found, rest)
    | c :: rest =>
      if c = singleQuote then (literalText rest).map fun (found, rest) => (String.ofList found, rest)
      else none
    | [] => none

def key : (fuel : Nat) → Reader (List String)
  | 0, _ => none
  | fuel + 1, chars => do
    let (part, rest) ← simpleKey chars
    match skipInline rest with
    | '.' :: rest =>
      let (more, rest) ← key fuel (skipInline rest)
      return (part :: more, rest)
    | _ => return ([part], rest)

/-! ### Numbers -/

def separated (isDigit : Char → Bool) : (fuel : Nat) → Reader (List Char)
  | 0, _ => none
  | _ + 1, [] => none
  | fuel + 1, c :: rest =>
    if !isDigit c then none
    else
      let further := match rest with
        | '_' :: rest => separated isDigit fuel rest
        | c :: rest => if isDigit c then separated isDigit fuel (c :: rest) else some ([], c :: rest)
        | [] => some ([], [])
      further.map fun (more, rest) => (c :: more, rest)

def decimalDigits : Reader (List Char) := fun chars => separated Char.isDigit (chars.length + 1) chars

/-- A sign, if there is one. -/
def sign : List Char → List Char × List Char
  | '+' :: rest => ([], rest)
  | '-' :: rest => (['-'], rest)
  | chars => ([], chars)

/-- Digits of a whole number; a zero stands alone. -/
def wholeDigits : Reader (List Char)
  | '0' :: rest => some (['0'], rest)
  | chars => decimalDigits chars

def integerInRange (value : Int) : Option Int :=
  if Int64.minValue.toInt ≤ value ∧ value ≤ Int64.maxValue.toInt then some value else none

def inBase (base : Nat) : Reader Int := fun chars => do
  let isDigit := fun (c : Char) =>
    c.toNat < 128 && ((Text.Hex.value? (UInt8.ofNat c.toNat)).any fun digit => digit < base)
  let (found, rest) ← separated isDigit (chars.length + 1) chars
  let value := found.foldl
    (fun n c => base * n + (Text.Hex.value? (UInt8.ofNat c.toNat)).getD 0) 0
  let value ← integerInRange value
  return (value, rest)

def integer : Reader Int
  | '0' :: 'x' :: rest => inBase 16 rest
  | '0' :: 'o' :: rest => inBase 8 rest
  | '0' :: 'b' :: rest => inBase 2 rest
  | chars => do
    let (sign, rest) := sign chars
    let (found, rest) ← wholeDigits rest
    let size : Nat := found.foldl (fun n c => 10 * n + (c.toNat - 48)) 0
    let value ← integerInRange (if sign.isEmpty then (size : Int) else -size)
    return (value, rest)

def power : Reader (List Char)
  | c :: rest =>
    if c = 'e' ∨ c = 'E' then do
      let (sign, rest) := sign rest
      let (found, rest) ← decimalDigits rest
      return ('e' :: sign ++ found, rest)
    else none
  | [] => none

def real : Reader Decimal.Binary := fun chars =>
  let (sign, rest) := sign chars
  match rest with
  | 'i' :: 'n' :: 'f' :: rest => some (.infinite !sign.isEmpty, rest)
  | 'n' :: 'a' :: 'n' :: rest => some (.notANumber, rest)
  | _ => do
    let (whole, rest) ← wholeDigits rest
    let (digits, rest) ← match rest with
      | '.' :: rest => do
        let (fraction, rest) ← decimalDigits rest
        match power rest with
        | some (found, rest) => pure (whole ++ '.' :: fraction ++ found, rest)
        | none => pure (whole ++ '.' :: fraction, rest)
      | rest => do
        let (found, rest) ← power rest
        pure (whole ++ found, rest)
    let value ← Decimal.readFloat? (sign ++ digits)
    if value.isInfinite && sign.isEmpty then none else some (value, rest)

/-! ### Dates and times -/

def fixedDigits (count low high : Nat) : Reader Nat := fun chars =>
  let digits := chars.take count
  if digits.length = count ∧ digits.all Char.isDigit then
    let n := digits.foldl (fun n c => 10 * n + (c.toNat - 48)) 0
    if low ≤ n ∧ n ≤ high then some (n, chars.drop count) else none
  else none

def character (wanted : Char) : Reader Unit
  | c :: rest => if c = wanted then some ((), rest) else none
  | [] => none

def isLeapYear (year : Nat) : Bool := year % 4 = 0 && (year % 100 ≠ 0 || year % 400 = 0)

def daysInMonth (year month : Nat) : Nat :=
  if month = 2 then if isLeapYear year then 29 else 28
  else if month = 4 ∨ month = 6 ∨ month = 9 ∨ month = 11 then 30
  else 31

def zeroPadded (width n : Nat) : List Char :=
  let digits := Nat.toDigits 10 n
  List.replicate (width - digits.length) '0' ++ digits

def date : Reader (List Char) := fun chars => do
  let (year, rest) ← fixedDigits 4 0 9999 chars
  let (_, rest) ← character '-' rest
  let (month, rest) ← fixedDigits 2 1 12 rest
  let (_, rest) ← character '-' rest
  let (day, rest) ← fixedDigits 2 1 (daysInMonth year month) rest
  return (zeroPadded 4 year ++ '-' :: zeroPadded 2 month ++ '-' :: zeroPadded 2 day, rest)

/-- The fraction of a second to nine places, without trailing zeros. -/
def secondFraction (chars : List Char) : Option (List Char × List Char) :=
  match chars with
  | '.' :: rest =>
    let digits := rest.takeWhile Char.isDigit
    if digits.isEmpty then none
    else
      let kept := ((digits.take 9).reverse.dropWhile (· = '0')).reverse
      some (if kept.isEmpty then [] else '.' :: kept, rest.drop digits.length)
  | chars => some ([], chars)

def time : Reader (List Char) := fun chars => do
  let (hour, rest) ← fixedDigits 2 0 23 chars
  let (_, rest) ← character ':' rest
  let (minute, rest) ← fixedDigits 2 0 59 rest
  let (_, rest) ← character ':' rest
  let (second, rest) ← fixedDigits 2 0 60 rest
  let (fraction, rest) ← secondFraction rest
  return (zeroPadded 2 hour ++ ':' :: zeroPadded 2 minute ++ ':' :: zeroPadded 2 second ++ fraction, rest)

/-- The distance from universal time; without one, the time is local. -/
def offset : Reader (List Char)
  | 'Z' :: rest | 'z' :: rest => some (['Z'], rest)
  | c :: rest =>
    if c = '+' ∨ c = '-' then
      let found := do
        let (hours, rest) ← fixedDigits 2 0 23 rest
        let (_, rest) ← character ':' rest
        let (minutes, rest) ← fixedDigits 2 0 59 rest
        return (hours, minutes, rest)
      match found with
      | none => none
      | some (hours, minutes, rest) =>
        let mark := if hours = 0 ∧ minutes = 0 then '+' else c
        some (mark :: zeroPadded 2 hours ++ ':' :: zeroPadded 2 minutes, rest)
    else some ([], c :: rest)
  | [] => some ([], [])

def dateTime : Reader String := fun chars =>
  match date chars with
  | some (found, rest) =>
    let behind := match rest with
      | c :: rest =>
        if c = 'T' ∨ c = 't' ∨ c = ' ' then do
          let (clock, rest) ← time rest
          let (zone, rest) ← offset rest
          return ('T' :: clock ++ zone, rest)
        else none
      | [] => none
    match behind with
    | some (more, rest) => some (String.ofList (found ++ more), rest)
    | none => some (String.ofList found, rest)
  | none => (time chars).map fun (found, rest) => (String.ofList found, rest)

/-! ### Scalars -/

def keyword (word : String) (value : Scalar) : Reader Scalar := fun chars =>
  if word.toList.isPrefixOf chars then some (value, chars.drop word.length) else none

def scalar : Reader Scalar := fun chars =>
  match text chars with
  | some (found, rest) => some (.text found, rest)
  | none =>
    match dateTime chars with
    | some (found, rest) => some (.text found, rest)
    | none =>
      match real chars with
      | some (found, rest) => some (.real found, rest)
      | none =>
        match integer chars with
        | some (found, rest) => some (.integer found, rest)
        | none => (keyword "true" (.boolean true) chars).or (keyword "false" (.boolean false) chars)

end TransferLoad.Toml
