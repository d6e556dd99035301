import TransferLoad.Decimal.Reading
import TransferLoad.Settings.Tree
import TransferLoad.Text.Hex

/-!
# YAML: texts

The parts of a YAML document that stand on their own: blanks and comments, and the five ways to write
a text. Indentation matters, so every reader keeps track of the column.
-/

namespace TransferLoad.Yaml

/-- A place in a document. -/
structure Cursor where
  chars : List Char
  column : Nat := 0
  /-- Only blanks stand before the place on its line. -/
  fresh : Bool := true
  anchors : List (String × SettingTree) := []

abbrev Reader (α : Type) := Cursor → Option (α × Cursor)

def isInlineSpace (c : Char) : Bool := c = ' ' || c = '\t'

def isBreak (c : Char) : Bool := c = '\n' || c = '\r'

def isSpace (c : Char) : Bool := isInlineSpace c || isBreak c

def atSpace : List Char → Bool
  | [] => true
  | c :: _ => isSpace c

def isFlowMark (c : Char) : Bool := c = ',' || c = '[' || c = ']' || c = '{' || c = '}'

namespace Cursor

def advance (cur : Cursor) (count : Nat) : Cursor :=
  { cur with chars := cur.chars.drop count, column := cur.column + count, fresh := false }

def newLine (cur : Cursor) (rest : List Char) : Cursor :=
  { cur with chars := rest, column := 0, fresh := true }

/-- Goes over a line end. -/
def pastBreak (cur : Cursor) : Cursor :=
  match cur.chars with
  | '\r' :: '\n' :: rest => cur.newLine rest
  | _ :: rest => cur.newLine rest
  | [] => cur

/-- Goes over blanks, comments and line ends. A tab does not count where a line is indented. -/
def skip : (fuel : Nat) → Cursor → Cursor
  | 0, cur => cur
  | fuel + 1, cur =>
    match cur.chars with
    | [] => cur
    | c :: rest =>
      if c = ' ' then skip fuel { cur with chars := rest, column := cur.column + 1 }
      else if c = '\t' ∧ !cur.fresh then skip fuel { cur with chars := rest, column := cur.column + 1 }
      else if isBreak c then skip fuel cur.pastBreak
      else if c = '#' then skip fuel { cur with chars := rest.dropWhile fun c => !isBreak c }
      else cur

def skipAll (cur : Cursor) : Cursor := cur.skip (cur.chars.length + 1)

def atMark (cur : Cursor) (mark : Char) : Bool :=
  cur.column = 0 && cur.fresh && cur.chars.take 3 = [mark, mark, mark] && atSpace (cur.chars.drop 3)

def atDocumentMark (cur : Cursor) : Bool := cur.atMark '-' || cur.atMark '.'

def startsWith (cur : Cursor) (mark : Char) : Bool :=
  match cur.chars with
  | c :: rest => c = mark && atSpace rest
  | [] => false

end Cursor

/-! ### Texts without quotes -/

/-- Whether a text without quotes ends at the colon in front of these characters. -/
def endsKey (inFlow : Bool) (rest : List Char) : Bool :=
  atSpace rest || (inFlow && rest.head?.any isFlowMark)

def plainWord (inFlow : Bool) : List Char → List Char
  | [] => []
  | c :: rest =>
    if isSpace c then []
    else if c = ':' && endsKey inFlow rest then []
    else if inFlow && isFlowMark c then []
    else c :: plainWord inFlow rest

/-- Goes over blanks and line ends behind a word: the blanks, how many lines have ended, and the place
behind. -/
def plainGap : (fuel : Nat) → (blanks : List Char) → (breaks : Nat) → Cursor → List Char × Nat × Cursor
  | 0, blanks, breaks, cur => (blanks, breaks, cur)
  | fuel + 1, blanks, breaks, cur =>
    match cur.chars with
    | [] => (blanks, breaks, cur)
    | c :: rest =>
      if isInlineSpace c then
        plainGap fuel (blanks ++ [c]) breaks { cur with chars := rest, column := cur.column + 1 }
      else if isBreak c then plainGap fuel [] (breaks + 1) cur.pastBreak
      else (blanks, breaks, cur)

/-- What a gap between two words of a text turns into: the blanks on one line, one blank for a line end,
and line ends for blank lines. -/
def fold (blanks : List Char) (breaks : Nat) : List Char :=
  if breaks = 0 then blanks else if breaks = 1 then [' '] else List.replicate (breaks - 1) '\n'

/-- A text without quotes, over all lines that are indented enough. -/
def plainText (inFlow : Bool) (indent : Nat) : (fuel : Nat) → Cursor → List Char × Cursor
  | 0, cur => ([], cur)
  | fuel + 1, cur =>
    let word := plainWord inFlow cur.chars
    let behind := cur.advance word.length
    let (blanks, breaks, next) := plainGap (behind.chars.length + 1) [] 0 behind
    if (breaks = 0 ∧ blanks.isEmpty) || next.chars.head? = some '#' || next.atDocumentMark ||
        (!inFlow && breaks > 0 && next.column < indent) || next.chars.isEmpty then
      (word, { next with fresh := breaks > 0 })
    else
      let (more, cur) := plainText inFlow indent fuel { next with fresh := breaks > 0 }
      if more.isEmpty then (word, cur) else (word ++ fold blanks breaks ++ more, cur)

/-- A text without quotes on one line. -/
def plainLine (inFlow : Bool) : (fuel : Nat) → List Char → List Char
  | 0, _ => []
  | fuel + 1, chars =>
    let word := plainWord inFlow chars
    let rest := chars.drop word.length
    let blanks := rest.takeWhile isInlineSpace
    let rest := rest.drop blanks.length
    if blanks.isEmpty || rest.isEmpty || rest.head? = some '#' || rest.head?.any isBreak then word
    else
      let more := plainLine inFlow fuel rest
      if more.isEmpty then word else word ++ blanks ++ more

/-! ### Texts with quotes -/

def singleQuote : Char := Char.ofNat 39

def codePoint (count : Nat) (chars : List Char) : Option (Char × List Char) :=
  let digits := (chars.take count).map fun c =>
    if c.toNat < 128 then Text.Hex.value? (UInt8.ofNat c.toNat) else none
  if digits.length = count ∧ digits.all Option.isSome then
    let n := digits.foldl (fun n digit => 16 * n + digit.getD 0) 0
    if n < 0xD800 ∨ (0xDFFF < n ∧ n < 0x110000) then some (Char.ofNat n, chars.drop count) else none
  else none

def shortEscapes : List (Char × Nat) :=
  [('0', 0), ('a', 7), ('b', 8), ('t', 9), ('\t', 9), ('n', 10), ('v', 11), ('f', 12), ('r', 13),
   ('e', 27), (' ', 32), ('"', 34), ('/', 47), ('\\', 92), (singleQuote, 39), ('N', 0x85), ('_', 0xA0),
   ('L', 0x2028), ('P', 0x2029)]

def escaped : List Char → Option (Char × List Char)
  | [] => none
  | 'x' :: rest => codePoint 2 rest
  | 'u' :: rest => codePoint 4 rest
  | 'U' :: rest => codePoint 8 rest
  | c :: rest => (shortEscapes.lookup c).map fun n => (Char.ofNat n, rest)

def quotedText (double : Bool) : (fuel : Nat) → Reader (List Char)
  | 0, _ => none
  | fuel + 1, cur =>
    if cur.atDocumentMark then none
    else
      match cur.chars with
      | [] => none
      | c :: rest =>
        let quote := if double then '"' else singleQuote
        let further := fun (found : List Char) (cur : Cursor) =>
          (quotedText double fuel cur).map fun (more, cur) => (found ++ more, cur)
        if c = quote then
          if !double && rest.head? = some quote then further [quote] (cur.advance 2)
          else some ([], cur.advance 1)
        else if double && c = '\\' then
          if rest.head?.any isBreak then
            let (_, breaks, next) := plainGap (rest.length + 1) [] 0 { cur with chars := rest }
            further (List.replicate (breaks - 1) '\n') next
          else
            match escaped rest with
            | some (found, after) =>
              further [found] (cur.advance (cur.chars.length - after.length))
            | none => none
        else if isSpace c then
          let (blanks, breaks, next) := plainGap (cur.chars.length + 1) [] 0 cur
          further (fold blanks breaks) next
        else further [c] (cur.advance 1)

/-! ### Blocks of lines -/

/-- The lines of a block: their texts without the indentation, as long as they are indented enough or
blank, and the place behind. -/
def blockLines (indent : Nat) : (fuel : Nat) → Cursor → List (List Char) × Cursor
  | 0, cur => ([], cur)
  | fuel + 1, cur =>
    let line := cur.chars.takeWhile fun c => !isBreak c
    let spaces := (line.takeWhile (· = ' ')).length
    let blank := line.length = spaces
    if cur.chars.isEmpty || (spaces < indent && !blank) || cur.atDocumentMark then ([], cur)
    else
      let next : Cursor := { cur with chars := cur.chars.drop line.length }
      if next.chars.isEmpty then ([line.drop indent], next)
      else
        let (more, cur) := blockLines indent fuel next.pastBreak
        (line.drop indent :: more, cur)

/-- The indentation of the first line that is not blank. -/
def firstIndent : (fuel : Nat) → List Char → Nat
  | 0, _ => 0
  | fuel + 1, chars =>
    let spaces := (chars.takeWhile (· = ' ')).length
    match chars.drop spaces with
    | [] => spaces
    | c :: rest => if isBreak c then firstIndent fuel rest else spaces

/-- How the line ends behind the last line of a block are treated. -/
inductive Chomping where
  | strip
  | clip
  | keep
  deriving Repr, DecidableEq

def literalLines (lines : List (List Char)) : List Char := (lines.map fun line => line ++ ['\n']).flatten

/-- Joins lines with blanks; blank lines turn into line ends, and lines that are indented further stay
as they are. -/
def foldedLines : List (List Char) → List Char
  | [] => []
  | [line] => line ++ ['\n']
  | line :: next :: rest =>
    let indented := fun (line : List Char) => line.head?.any isInlineSpace
    let behind :=
      if line.isEmpty || indented line || indented next then ['\n']
      else if next.isEmpty then []
      else [' ']
    line ++ behind ++ foldedLines (next :: rest)

def blockText (folded : Bool) (parent : Int) : Reader (List Char) := fun cur =>
  let header := cur.chars.takeWhile fun c => c = '+' || c = '-' || ('1' ≤ c && c ≤ '9')
  let rest := (cur.chars.drop header.length).dropWhile isInlineSpace
  let rest := if rest.head? = some '#' then rest.dropWhile fun c => !isBreak c else rest
  if header.length > 2 || !(rest.isEmpty || rest.head?.any isBreak) then none
  else
    let chomping :=
      if header.contains '-' then Chomping.strip else if header.contains '+' then .keep else .clip
    let start := ({ cur with chars := rest } : Cursor).pastBreak
    let base := (max parent 0).toNat
    let indent := match header.find? Char.isDigit with
      | some c => base + (c.toNat - 48)
      | none => max (firstIndent (start.chars.length + 1) start.chars) (parent + 1).toNat
    let (lines, next) := blockLines indent (start.chars.length + 1) start
    let kept := (lines.reverse.dropWhile List.isEmpty).reverse
    let trailing := lines.length - kept.length
    let body := if folded then foldedLines kept else literalLines kept
    let text := match chomping with
      | .strip => body.dropLast
      | .clip => body
      | .keep => body ++ List.replicate trailing '\n'
    some (text, next)

/-! ### What a text without quotes means -/

/-- A whole number in another base, with an optional sign. -/
def inBase? (base : Nat) (chars : List Char) : Option Int :=
  let (negative, digits) := match chars with
    | '-' :: rest => (true, rest)
    | '+' :: rest => (false, rest)
    | rest => (false, rest)
  let values := digits.map fun c =>
    if c.toNat < 128 then (Text.Hex.value? (UInt8.ofNat c.toNat)).filter (· < base) else none
  if digits.isEmpty || values.any Option.isNone then none
  else
    let n : Nat := values.foldl (fun n digit => base * n + digit.getD 0) 0
    let value : Int := if negative then -n else n
    if Int64.minValue.toInt ≤ value ∧ value ≤ Int64.maxValue.toInt then some value else none

/-- Words for values that are no numbers in the text they are written in. -/
def unreadableReals : List String :=
  [".inf", ".Inf", ".INF", "+.inf", "+.Inf", "+.INF", "-.inf", "-.Inf", "-.INF", ".nan", ".NAN"]

/-- The value of a text without quotes; some words for doubles have none. -/
def plainScalar? (text : String) : Option Scalar :=
  let chars := text.toList
  let based := match chars with
    | '0' :: 'x' :: rest => inBase? 16 rest
    | '0' :: 'o' :: rest => inBase? 8 rest
    | _ => none
  match based with
  | some n => some (.integer n)
  | none =>
    if text = "~" ∨ text = "null" then some .nothing
    else if text = "true" then some (.boolean true)
    else if text = "false" then some (.boolean false)
    else
      match Text.readInt64 chars with
      | .ok n => some (.integer n)
      | .error _ =>
        if unreadableReals.contains text then none
        else
          match Decimal.readFloat? chars with
          | some x => some (.real x)
          | none => some (.text text)

end TransferLoad.Yaml
