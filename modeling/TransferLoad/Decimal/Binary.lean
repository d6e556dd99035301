/-!
# Floating-point numbers as exact fractions

A double of 64 bits is `± mantissa * 2 ^ exponent`, infinite, or no number. Everything that reads, prints
or rounds one works on these parts in whole-number arithmetic, so nothing depends on how a machine rounds.
-/

namespace TransferLoad.Decimal

inductive Binary where
  | notANumber
  | infinite (negative : Bool)
  | finite (negative : Bool) (mantissa : Nat) (exponent : Int)
  deriving Repr, DecidableEq

def Binary.ofBits (bits : UInt64) : Binary :=
  let n := bits.toNat
  let negative := 1 <<< 63 ≤ n
  let field : Nat := n / (1 <<< 52) % 2048
  let fraction := n % (1 <<< 52)
  if field = 2047 then if fraction = 0 then .infinite negative else .notANumber
  else if field = 0 then .finite negative fraction (-1074)
  else .finite negative ((1 <<< 52) + fraction) (field - 1075)

def Binary.ofFloat (x : Float) : Binary := .ofBits x.toBits

def Binary.isZero : Binary → Bool
  | finite _ 0 _ => true
  | _ => false

def Binary.isFinite : Binary → Bool
  | finite .. => true
  | _ => false

def Binary.isInfinite : Binary → Bool
  | infinite _ => true
  | _ => false

/-- A nonnegative fraction. -/
structure Fraction where
  numerator : Nat
  denominator : Nat

/-- `mantissa * 2 ^ exponent`. -/
def Fraction.ofBinary (mantissa : Nat) (exponent : Int) : Fraction :=
  if 0 ≤ exponent then ⟨mantissa <<< exponent.toNat, 1⟩ else ⟨mantissa, 1 <<< (-exponent).toNat⟩

def Fraction.times (f g : Fraction) : Fraction :=
  ⟨f.numerator * g.numerator, f.denominator * g.denominator⟩

def Fraction.dividedBy (f g : Fraction) : Fraction :=
  ⟨f.numerator * g.denominator, f.denominator * g.numerator⟩

/-- The nearest whole number; a half goes to the even neighbour. -/
def Fraction.roundHalfEven (f : Fraction) : Nat :=
  let whole := f.numerator / f.denominator
  let rest := f.numerator % f.denominator
  if 2 * rest < f.denominator then whole
  else if 2 * rest = f.denominator then whole + whole % 2
  else whole + 1

/-- The nearest whole number; a half goes up. -/
def Fraction.roundHalfUp (f : Fraction) : Nat :=
  (2 * f.numerator + f.denominator) / (2 * f.denominator)

/-! ### Rounding to a double -/

/-- The fraction in units of `2 ^ power`. -/
def Fraction.inUnits (f : Fraction) (power : Int) : Fraction :=
  if 0 ≤ power then ⟨f.numerator, f.denominator <<< power.toNat⟩
  else ⟨f.numerator <<< (-power).toNat, f.denominator⟩

/-- The exponent of the largest power of two that is not above a fraction other than zero. -/
def Fraction.binade (f : Fraction) : Int :=
  let guess : Int := f.numerator.log2 - f.denominator.log2
  let units := f.inUnits guess
  if units.denominator ≤ units.numerator then guess else guess - 1

/-- Bits behind the first one of a mantissa. -/
def Binary.fractionBits : Nat := 52

def Binary.minExponent : Int := -1074

def Binary.maxExponent : Int := 971

/-- The double nearest to a fraction, with an even mantissa where two are. -/
def Binary.nearest (negative : Bool) (f : Fraction) : Binary :=
  if f.numerator = 0 then .finite negative 0 minExponent
  else
    let exponent := max (f.binade - fractionBits) minExponent
    let mantissa := (f.inUnits exponent).roundHalfEven
    -- rounding up can lead to the next power of two
    let (mantissa, exponent) :=
      if mantissa = 2 <<< fractionBits then (1 <<< fractionBits, exponent + 1) else (mantissa, exponent)
    if maxExponent < exponent then .infinite negative else .finite negative mantissa exponent

def Binary.ofNat (n : Nat) : Binary := nearest false ⟨n, 1⟩

/-! ### Arithmetic -/

namespace Binary

def negate : Binary → Binary
  | notANumber => .notANumber
  | infinite negative => .infinite !negative
  | finite negative mantissa exponent => .finite (!negative) mantissa exponent

instance : Neg Binary := ⟨negate⟩

def times : Binary → Binary → Binary
  | finite negative mantissa exponent, finite negative' mantissa' exponent' =>
    nearest (negative != negative')
      ((Fraction.ofBinary mantissa exponent).times (Fraction.ofBinary mantissa' exponent'))
  | infinite negative, infinite negative' => .infinite (negative != negative')
  | infinite negative, finite negative' mantissa _ | finite negative mantissa _, infinite negative' =>
    if mantissa = 0 then .notANumber else .infinite (negative != negative')
  | _, _ => .notANumber

instance : Mul Binary := ⟨times⟩

def dividedBy : Binary → Binary → Binary
  | finite negative mantissa exponent, finite negative' mantissa' exponent' =>
    if mantissa' = 0 then if mantissa = 0 then .notANumber else .infinite (negative != negative')
    else
      nearest (negative != negative')
        ((Fraction.ofBinary mantissa exponent).dividedBy (Fraction.ofBinary mantissa' exponent'))
  | infinite negative, finite negative' _ _ => .infinite (negative != negative')
  | finite negative _ _, infinite negative' => .finite (negative != negative') 0 minExponent
  | _, _ => .notANumber

instance : Div Binary := ⟨dividedBy⟩

end Binary

/-- A double as a whole number of 64 bits without a sign: rounded, a half away from zero, and cut off
at both ends of the range. No number counts as zero. -/
def saturatedNat (x : Binary) : Nat :=
  match x with
  | .notANumber => 0
  | .infinite negative => if negative then 0 else UInt64.size - 1
  | .finite negative mantissa exponent =>
    if negative then 0
    else if 64 ≤ exponent then if mantissa = 0 then 0 else UInt64.size - 1
    else min (Fraction.ofBinary mantissa exponent).roundHalfUp (UInt64.size - 1)

end TransferLoad.Decimal
