import TransferLoad.Decimal.Binary

/-!
# A fixed number of decimal places

The text of a double with so many digits after the point: its exact value, rounded to the nearest such
decimal, a half to the even digit. The sign stays even where all digits are zero.
-/

namespace TransferLoad.Decimal

/-- The digits of `n / 10 ^ places`, with a point where there are places. -/
def pointed (places n : Nat) : String :=
  let unit := Nat.pow 10 places
  let whole := toString (n / unit)
  if places = 0 then whole
  else whole ++ "." ++ String.ofList ((Nat.toDigits 10 (unit + n % unit)).drop 1)

def toPlaces (places : Nat) (x : Float) : String :=
  match Binary.ofFloat x with
  | .notANumber => "NaN"
  | .infinite negative => if negative then "-inf" else "inf"
  | .finite negative mantissa exponent =>
    let exact := Fraction.ofBinary mantissa exponent
    let scaled := Fraction.roundHalfEven ⟨exact.numerator * Nat.pow 10 places, exact.denominator⟩
    (if negative then "-" else "") ++ pointed places scaled

end TransferLoad.Decimal
