import TransferLoad.Text.Numeral

/-!
# Numeric host addresses

Addresses of 32 bits are four numbers with points between them, addresses of 128 bits are eight groups
of hexadecimal digits with colons between them. One row of groups of zeros may be left out of the
latter, and their last two groups may be written as an address of 32 bits.
-/

namespace TransferLoad.Net

def splitAt (separator : Char) : List Char → List (List Char)
  | [] => [[]]
  | c :: rest =>
    if c = separator then [] :: splitAt separator rest
    else
      match splitAt separator rest with
      | [] => [[c]]
      | piece :: pieces => (c :: piece) :: pieces

def digitIn? (base : Nat) (c : Char) : Option Nat :=
  let n := c.toNat
  let value :=
    if 48 ≤ n ∧ n ≤ 57 then some (n - 48)
    else if 97 ≤ n ∧ n ≤ 102 then some (n - 87)
    else if 65 ≤ n ∧ n ≤ 70 then some (n - 55)
    else none
  value.filter (· < base)

/-- A number in some base, of at least one digit. -/
def numberIn? (base : Nat) (chars : List Char) : Option Nat :=
  if chars = [] then none
  else (chars.mapM (digitIn? base)).map fun digits => digits.foldl (fun n d => base * n + d) 0

/-! ### 32 bits -/

namespace Ipv4

/-- One of the four numbers: at most three digits, at most 255, and no zero in front. -/
def octet? (chars : List Char) : Option Nat :=
  if 3 < chars.length ∨ (chars.head? = some '0' ∧ chars ≠ ['0']) then none
  else (numberIn? 10 chars).filter (· < 256)

def parseStrict? (chars : List Char) : Option Nat :=
  match (splitAt '.' chars).mapM octet? with
  | some [a, b, c, d] => some (((a * 256 + b) * 256 + c) * 256 + d)
  | _ => none

def render (address : Nat) : List Char :=
  let octet := fun power => (toString (address / Nat.pow 256 power % 256)).toList
  octet 3 ++ '.' :: octet 2 ++ '.' :: octet 1 ++ '.' :: octet 0

def baseOf : List Char → Nat × List Char
  | '0' :: 'x' :: digits => (16, digits)
  | '0' :: 'X' :: digits => (16, digits)
  | '0' :: c :: digits => (8, c :: digits)
  | digits => (10, digits)

/-- A number in the base that it announces; an announced base without digits makes zero. -/
def looseNumber? (chars : List Char) : Option Nat :=
  if chars = [] then none
  else
    match baseOf chars with
    | (_, []) => some 0
    | (base, digits) => numberIn? base digits

/-- The parts between the points, without an empty one at the end. -/
def looseParts (chars : List Char) : List (List Char) :=
  let parts := splitAt '.' chars
  if parts.getLast? = some [] ∧ 1 < parts.length then parts.dropLast else parts

/-- The last part of a name is a number, so that the whole has to be an address. -/
def endsInNumber (chars : List Char) : Bool :=
  match (looseParts chars).getLast? with
  | none => false
  | some last =>
    (last ≠ [] && last.all fun c => (Text.digit? c).isSome) || (looseNumber? last).isSome

/-- The address whose leading numbers fill one byte each and whose last number fills the rest. -/
def ofNumbers? : List Nat → Option Nat
  | [] => none
  | numbers =>
    let leading := numbers.dropLast
    let last := numbers.getLastD 0
    let room := Nat.pow 256 (4 - leading.length)
    if leading.length ≤ 3 ∧ leading.all (· < 256) ∧ last < room then
      some (leading.foldl (fun n octet => 256 * n + octet) 0 * room + last)
    else none

/-- An address in any of the forms that are read: with fewer numbers, and in other bases. -/
def parseLoose? (chars : List Char) : Option Nat := ((looseParts chars).mapM looseNumber?).bind ofNumbers?

end Ipv4

/-! ### 128 bits -/

namespace Ipv6

/-- A group of one to four hexadecimal digits. -/
def group? (chars : List Char) : Option Nat :=
  if 4 < chars.length then none else numberIn? 16 chars

/-- The groups in a text without a gap. The last may be an address of 32 bits if `tail` says so. -/
def groups? (tail : Bool) (chars : List Char) : Option (List Nat) :=
  if chars = [] then some []
  else
    let pieces := splitAt ':' chars
    let last := pieces.getLastD []
    match if tail then Ipv4.parseStrict? last else none with
    | some address => (pieces.dropLast.mapM group?).map (· ++ [address / 65536, address % 65536])
    | none => pieces.mapM group?

/-- What stands before and behind the first pair of colons. -/
def splitAtGap : List Char → Option (List Char × List Char)
  | ':' :: ':' :: rest => some ([], rest)
  | c :: rest => (splitAtGap rest).map fun (before, behind) => (c :: before, behind)
  | [] => none

/-- The eight groups of an address. A gap stands for at least one group. -/
def parse? (chars : List Char) : Option (List Nat) :=
  match splitAtGap chars with
  | none => (groups? true chars).filter fun groups => chars ≠ [] ∧ groups.length = 8
  | some (before, behind) =>
    match groups? false before, groups? true behind with
    | some front, some back =>
      let given := front.length + back.length
      if given < 8 then some (front ++ List.replicate (8 - given) 0 ++ back) else none
    | _, _ => none

def zeroRun (groups : List Nat) : Nat := (groups.takeWhile (· = 0)).length

/-- The first of the longest rows of zeros, if it has two groups or more: its start and its length. -/
def gap? (groups : List Nat) : Option (Nat × Nat) :=
  let runs := (List.range groups.length).map fun start => (start, zeroRun (groups.drop start))
  (runs.foldl (fun best run => if best.2 < run.2 then run else best) (0, 1)) |> fun best =>
    if 2 ≤ best.2 then some best else none

def renderGroups (groups : List Nat) : List Char :=
  [':'].intercalate (groups.map fun group => Nat.toDigits 16 group)

def render (groups : List Nat) : List Char :=
  match gap? groups with
  | some (start, length) =>
    renderGroups (groups.take start) ++ ':' :: ':' :: renderGroups (groups.drop (start + length))
  | none => renderGroups groups

end Ipv6

/-! ### Sockets -/

/-- A number up to a bound, with any zeros in front. -/
def isBounded (bound : Nat) (digits : List Char) : Bool :=
  (numberIn? 10 digits).any (· ≤ bound)

/-- A numeric address and, behind a colon, the number of a service. In brackets, an address of 128 bits
may have a zone behind a percent sign. -/
def isSocketAddress : List Char → Bool
  | '[' :: rest =>
    let inside := rest.takeWhile (· ≠ ']')
    let zone := match inside.dropWhile (· ≠ '%') with
      | _ :: digits => isBounded (UInt32.size - 1) digits
      | [] => true
    (Ipv6.parse? (inside.takeWhile (· ≠ '%'))).isSome && zone &&
      match rest.dropWhile (· ≠ ']') with
      | _ :: ':' :: service => isBounded (UInt16.size - 1) service
      | _ => false
  | chars =>
    (Ipv4.parseStrict? (chars.takeWhile (· ≠ ':'))).isSome &&
      match chars.dropWhile (· ≠ ':') with
      | _ :: service => isBounded (UInt16.size - 1) service
      | [] => false

end TransferLoad.Net
