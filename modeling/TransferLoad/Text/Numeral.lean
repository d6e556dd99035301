/-!
# Decimal numerals

Reading whole numbers the strict way: ASCII digits only, one sign at most, no blanks, and a bound.
The digits are read from left to right, and the first fault is the one reported.
-/

namespace TransferLoad.Text

inductive NumeralError where
  | empty
  | invalidDigit
  | tooLarge
  | tooSmall
  deriving Repr, DecidableEq

def NumeralError.message : NumeralError → String
  | empty => "cannot parse integer from empty string"
  | invalidDigit => "invalid digit found in string"
  | tooLarge => "number too large to fit in target type"
  | tooSmall => "number too small to fit in target type"

/-- The value of an ASCII digit. -/
def digit? (c : Char) : Option Nat :=
  if '0' ≤ c ∧ c ≤ '9' then some (c.toNat - 48) else none

/-- Reads digits after a part with the value `value`, failing with `tooFar` past the bound. -/
def readDigits (bound : Nat) (tooFar : NumeralError) : (value : Nat) → List Char → Except NumeralError Nat
  | value, [] => .ok value
  | value, c :: rest =>
    match digit? c with
    | none => .error .invalidDigit
    | some d =>
      if 10 * value + d ≤ bound then readDigits bound tooFar (10 * value + d) rest else .error tooFar

/-- Reads a number from zero to the bound, with an optional plus sign. -/
def readNat (bound : Nat) : List Char → Except NumeralError Nat
  | [] => .error .empty
  | ['+'] => .error .invalidDigit
  | '+' :: rest => readDigits bound .tooLarge 0 rest
  | chars => readDigits bound .tooLarge 0 chars

/-- Reads a number of 64 bits with a sign. -/
def readInt64 : List Char → Except NumeralError Int
  | [] => .error .empty
  | ['+'] | ['-'] => .error .invalidDigit
  | '-' :: rest => (fun n => -Int.ofNat n) <$> readDigits (1 <<< 63) .tooSmall 0 rest
  | '+' :: rest => Int.ofNat <$> readDigits ((1 <<< 63) - 1) .tooLarge 0 rest
  | chars => Int.ofNat <$> readDigits ((1 <<< 63) - 1) .tooLarge 0 chars

end TransferLoad.Text
