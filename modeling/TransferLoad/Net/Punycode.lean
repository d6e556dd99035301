/-!
# Names beyond ASCII

Host names are sent in ASCII. A label with other characters becomes its ASCII characters, a hyphen if
there are any, and a row of numbers that say in ascending order which further characters stand where.
Each number is the distance from the place reached last, counted through all characters and all places
of the label; it is written in base 36 with its lowest digit first, and thresholds that follow the size
of the earlier numbers tell where it ends.
-/

namespace TransferLoad.Net.Punycode

/-- The letter or numeral for a digit below 36. -/
def digit (n : Nat) : Char := if n < 26 then Char.ofNat (97 + n) else Char.ofNat (22 + n)

/-- The smallest digit that does not end a number, at the place with the given weight. -/
def threshold (place bias : Nat) : Nat := min 26 (max 1 (place - bias))

def digits (bias place number : Nat) : List Char :=
  let t := threshold place bias
  if number < t then [digit number]
  else digit (t + (number - t) % (36 - t)) :: digits bias (place + 36) ((number - t) / (36 - t))
termination_by number
decreasing_by
  have : 1 ≤ threshold place bias := by unfold threshold; omega
  exact Nat.lt_of_le_of_lt (Nat.div_le_self _ _) (by omega)

/-- Halves a number by factors of 35 and counts the places. -/
def settle (number places : Nat) : Nat :=
  if 455 < number then settle (number / 35) (places + 36)
  else places + 36 * number / (number + 38)
termination_by number
decreasing_by omega

/-- How the thresholds move after a number, of which the first is weighed less. -/
def nextBias (number points : Nat) (first : Bool) : Nat :=
  let scaled := if first then number / 700 else number / 2
  settle (scaled + scaled / points) 0

structure Progress where
  written : List Char := []
  distance : Nat := 0
  bias : Nat := 72
  placed : Nat

/-- Passes one character of the label while the characters with the number `current` are placed. -/
def pass (basic current : Nat) (p : Progress) (c : Char) : Progress :=
  if c.toNat < current then { p with distance := p.distance + 1 }
  else if c.toNat = current then
    { written := p.written ++ digits p.bias 36 p.distance
      distance := 0
      bias := nextBias p.distance (p.placed + 1) (p.placed = basic)
      placed := p.placed + 1 }
  else p

/-- Places the further characters, in ascending order; all below `reached` are placed already. -/
def placeAll (label : List Char) (basic : Nat) : List Nat → (reached : Nat) → Progress → Progress
  | [], _, p => p
  | current :: later, reached, p =>
    let p := { p with distance := p.distance + (current - reached) * (p.placed + 1) }
    let p := label.foldl (pass basic current) p
    placeAll label basic later (current + 1) { p with distance := p.distance + 1 }

def encode (label : List Char) : List Char :=
  let basic := label.filter (·.toNat < 128)
  let further := ((label.filter (128 ≤ ·.toNat)).map Char.toNat).eraseDups.mergeSort
  let p := placeAll label basic.length further 128 { placed := basic.length }
  basic ++ (if basic = [] then [] else ['-']) ++ p.written

end TransferLoad.Net.Punycode
