import TransferLoad.Decimal.Binary
import TransferLoad.Text.Numeral

/-!
# Reading doubles

The text of a double is an optional sign and either a word for an infinite value or for no number, or
digits with at most one point and an optional power of ten. The value is the double nearest to the
decimal.
-/

namespace TransferLoad.Decimal

open Text

/-- The double nearest to `digits * 10 ^ exponent`. Numbers that are out of range by far are settled
by their size. -/
def ofDecimal (digits : Nat) (exponent : Int) : Binary :=
  let size := ((Nat.toDigits 10 digits).length : Int) + exponent
  if digits = 0 ∨ size < -400 then .nearest false ⟨0, 1⟩
  else if 400 < size then .infinite false
  else if exponent < 0 then .nearest false ⟨digits, Nat.pow 10 (-exponent).toNat⟩
  else .nearest false ⟨digits * Nat.pow 10 exponent.toNat, 1⟩

/-- The digits at the front as a number, how many they are, and what follows. -/
def leadingDigits (chars : List Char) : Nat × Nat × List Char :=
  let digits := chars.takeWhile Char.isDigit
  (digits.foldl (fun n c => 10 * n + (c.toNat - 48)) 0, digits.length, chars.dropWhile Char.isDigit)

/-- A power of ten after its letter; a missing digit is a fault. -/
def exponentPart? (chars : List Char) : Option Int :=
  let (negative, rest) := match chars with
    | '-' :: rest => (true, rest)
    | '+' :: rest => (false, rest)
    | rest => (false, rest)
  match leadingDigits rest with
  | (_, 0, _) => none
  | (n, _, []) => some (if negative then -(n : Int) else n)
  | _ => none

/-- A decimal without a sign: digits before the point, behind it, or both. -/
def readUnsigned? (chars : List Char) : Option Binary :=
  let (whole, wholeCount, rest) := leadingDigits chars
  let (fraction, fractionCount, rest) := match rest with
    | '.' :: rest => leadingDigits rest
    | rest => (0, 0, rest)
  if wholeCount + fractionCount = 0 then none
  else
    let power := match rest with
      | [] => some 0
      | c :: rest => if c = 'e' ∨ c = 'E' then exponentPart? rest else none
    power.map fun power => ofDecimal (whole * Nat.pow 10 fractionCount + fraction) (power - fractionCount)

/-- A word for an infinite value or for no number, in any case. -/
def readWord? (chars : List Char) : Option Binary :=
  match String.ofList (chars.map Char.toLower) with
  | "inf" | "infinity" => some (.infinite false)
  | "nan" => some .notANumber
  | _ => none

def readFloat? (chars : List Char) : Option Binary :=
  let unsigned := fun rest => (readWord? rest).or (readUnsigned? rest)
  match chars with
  | '-' :: rest => (unsigned rest).map fun x => -x
  | '+' :: rest => unsigned rest
  | rest => unsigned rest

end TransferLoad.Decimal
