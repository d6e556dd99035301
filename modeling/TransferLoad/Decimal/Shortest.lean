import TransferLoad.Decimal.Binary

/-!
# The shortest text of a double

A double is written with the fewest digits that read back as the same double, and of those with the
digits nearest to its value. For a growing number of digits, the two neighbours of the value on that
decimal grid are tested against the interval of all reals that round to the double.
-/

namespace TransferLoad.Decimal

/-- The reals that round to `mantissa * 2 ^ exponent`, as numerators over `4 * 2 ^ -exponent`: the
lower gap is half as wide at a power of two. The ends belong to it when the mantissa is even. -/
structure Interval where
  low : Nat
  value : Nat
  high : Nat
  closed : Bool

def Interval.of (mantissa : Nat) (exponent : Int) : Interval :=
  let narrow := mantissa = 1 <<< 52 ∧ -1074 < exponent
  { low := 4 * mantissa - (if narrow then 1 else 2)
    value := 4 * mantissa
    high := 4 * mantissa + 2
    closed := mantissa % 2 = 0 }

/-- Whether `n * unit` lies in the interval, everything over the same denominator. -/
def Interval.holds (i : Interval) (scaled : Nat) (factor : Nat) : Bool :=
  if i.closed then i.low * factor ≤ scaled && scaled ≤ i.high * factor
  else i.low * factor < scaled && scaled < i.high * factor

/-- The decimal `digits * 10 ^ exponent`. -/
structure Digits where
  digits : Nat
  exponent : Int
  deriving Repr, DecidableEq

/-- The grid point with step `10 ^ power` that reads back, the nearer one of two. -/
def onGrid? (i : Interval) (exponent : Int) (power : Int) : Option Digits :=
  -- value = i.value * 2 ^ (exponent - 2); both sides are brought to whole numbers
  let binary := exponent - 2
  let factor :=
    (if 0 ≤ binary then 1 <<< binary.toNat else 1) *
      (if power < 0 then Nat.pow 10 (-power).toNat else 1)
  let unit :=
    (if binary < 0 then 1 <<< (-binary).toNat else 1) *
      (if 0 ≤ power then Nat.pow 10 power.toNat else 1)
  let below := i.value * factor / unit
  let above := below + 1
  let lowOk := i.holds (below * unit) factor
  let highOk := i.holds (above * unit) factor
  let lowGap := i.value * factor - below * unit
  let highGap := above * unit - i.value * factor
  if lowOk && (!highOk || lowGap < highGap || (lowGap = highGap && below % 2 = 0)) then
    some ⟨below, power⟩
  else if highOk then some ⟨above, power⟩
  else none

/-- The place of the first digit: the largest `k` with `10 ^ k` at most the value. -/
def leadingPlace (mantissa : Nat) (exponent : Int) : Int :=
  let exact := Fraction.ofBinary mantissa exponent
  if exact.denominator ≤ exact.numerator then
    ((Nat.toDigits 10 (exact.numerator / exact.denominator)).length : Int) - 1
  else
    let digits := (Nat.toDigits 10 (exact.denominator / exact.numerator)).length
    if exact.denominator ≤ exact.numerator * Nat.pow 10 (digits - 1) then -((digits : Int) - 1)
    else -(digits : Int)

/-- Seventeen digits are always enough. -/
def shortest (mantissa : Nat) (exponent : Int) : Digits :=
  let i := Interval.of mantissa exponent
  let place := leadingPlace mantissa exponent
  let found := (List.range 17).findSome? fun (n : Nat) => onGrid? i exponent (place - n)
  found.getD ⟨mantissa, exponent⟩

/-- Positional notation, whatever the size of the number. -/
def Digits.positional (d : Digits) : String :=
  if 0 ≤ d.exponent then toString (d.digits * Nat.pow 10 d.exponent.toNat)
  else
    let unit := Nat.pow 10 (-d.exponent).toNat
    let fraction := (Nat.toDigits 10 (unit + d.digits % unit)).drop 1
    let kept := (fraction.reverse.dropWhile (· == '0')).reverse
    toString (d.digits / unit) ++ (if kept.isEmpty then "" else "." ++ String.ofList kept)

/-- The text of a double without an exponent. -/
def toText (x : Binary) : String :=
  match x with
  | .notANumber => "NaN"
  | .infinite negative => if negative then "-inf" else "inf"
  | .finite negative mantissa exponent =>
    (if negative then "-" else "") ++
      if mantissa = 0 then "0" else (shortest mantissa exponent).positional

end TransferLoad.Decimal
