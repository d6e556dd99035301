/-!
# Lengths of time

A length of time is a count of nanoseconds. Its text uses the largest unit of which there is at least
one, with a fraction that drops trailing zeros.
-/

namespace TransferLoad.Text.Timespan

/-- The digits of a fraction `part / 10 ^ width`, without trailing zeros, after a point if any stay. -/
def fraction (width part : Nat) : String :=
  let digits := (Nat.toDigits 10 (Nat.pow 10 width + part)).drop 1
  let kept := (digits.reverse.dropWhile (· == '0')).reverse
  if kept.isEmpty then "" else "." ++ String.ofList kept

def render (nanoseconds : Nat) : String :=
  if 1_000_000_000 ≤ nanoseconds then
    toString (nanoseconds / 1_000_000_000) ++ fraction 9 (nanoseconds % 1_000_000_000) ++ "s"
  else if 1_000_000 ≤ nanoseconds then
    toString (nanoseconds / 1_000_000) ++ fraction 6 (nanoseconds % 1_000_000) ++ "ms"
  else if 1_000 ≤ nanoseconds then
    toString (nanoseconds / 1_000) ++ fraction 3 (nanoseconds % 1_000) ++ "µs"
  else toString nanoseconds ++ "ns"

end TransferLoad.Text.Timespan
