import TransferLoad.Decimal.Reading

/-!
# Numbers in JSON

A number is kept as it is written and read only when its value is needed. A whole number without
fraction and exponent that fits 64 bits is exact. Any other number is a double: the digits that fit 64
bits are taken as a whole number, further digits only count as places, and the result is scaled by a
power of ten in double arithmetic, which need not give the nearest double.
-/

namespace TransferLoad.Json

structure Exponent where
  negative : Bool
  digits : List Nat
  deriving Repr, DecidableEq

structure Number where
  negative : Bool
  whole : List Nat
  /-- The digits behind the point, if there is one. -/
  fraction : Option (List Nat) := none
  exponent : Option Exponent := none
  deriving Repr, DecidableEq

/-- Digits that have been taken in, and the power of ten that they still lack. -/
structure Significand where
  digits : Nat := 0
  exponent : Int := 0
  /-- Some digits did not fit. -/
  full : Bool := false
  deriving Repr, DecidableEq

namespace Significand

/-- The largest number of 64 bits. -/
def bound : Nat := UInt64.size - 1

/-- Takes a digit before the point; one that does not fit counts as a place. -/
def takeWhole (s : Significand) (digit : Nat) : Significand :=
  if !s.full && 10 * s.digits + digit ≤ bound then { s with digits := 10 * s.digits + digit }
  else { s with exponent := s.exponent + 1, full := true }

/-- Takes the digits behind the point; those from the first that does not fit are left out. -/
def takeFraction (s : Significand) : List Nat → Significand
  | [] => s
  | digit :: rest =>
    if 10 * s.digits + digit ≤ bound then
      takeFraction { s with digits := 10 * s.digits + digit, exponent := s.exponent - 1 } rest
    else s

end Significand

def maxExponent : Nat := (1 <<< 31) - 1

/-- Powers of ten from here on are no doubles. -/
def maxPower : Nat := 308

/-- A double times a power of ten, step by step; too large a result has no value. -/
def scaled (x : Decimal.Binary) (exponent : Int) : Option Decimal.Binary :=
  if 0 ≤ exponent then
    if exponent ≤ maxPower then
      let y := x * Decimal.ofDecimal 1 exponent
      if y.isInfinite then none else some y
    else if x.isZero then some x
    else none
  else if _h : exponent < -(maxPower : Int) then
    if x.isZero then some x
    else scaled (x / Decimal.ofDecimal 1 maxPower) (exponent + maxPower)
  else some (x / Decimal.ofDecimal 1 (-exponent))
termination_by (-exponent).toNat
decreasing_by
  have : (maxPower : Int) = 308 := rfl
  omega

namespace Number

def digitsValue (digits : List Nat) : Nat := digits.foldl (fun n digit => 10 * n + digit) 0

/-- The value of a whole number that is exact: up to 64 bits without a sign, or at least `-2 ^ 63`.
Zero with a sign is left to the doubles. -/
def integer? (n : Number) : Option Int :=
  match n.fraction, n.exponent with
  | none, none =>
    let value := digitsValue n.whole
    if n.negative then if 0 < value ∧ value ≤ 1 <<< 63 then some (-value) else none
    else if value ≤ Significand.bound then some value
    else none
  | _, _ => none

def significand (n : Number) : Significand :=
  (n.whole.foldl Significand.takeWhole {}).takeFraction (n.fraction.getD [])

def signed (n : Number) (x : Decimal.Binary) : Decimal.Binary := if n.negative then -x else x

/-- The value as a double, if it is in range. -/
def float? (n : Number) : Option Decimal.Binary :=
  let s := n.significand
  let x := Decimal.Binary.ofNat s.digits
  match n.exponent with
  | none => (scaled x s.exponent).map n.signed
  | some e =>
    let power := digitsValue e.digits
    if maxExponent < power then
      if s.digits ≠ 0 ∧ !e.negative then none else some (n.signed (.ofNat 0))
    else (scaled x (if e.negative then s.exponent - power else s.exponent + power)).map n.signed

end Number

end TransferLoad.Json
