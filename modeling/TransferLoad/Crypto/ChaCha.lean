import TransferLoad.Crypto.Mixing

/-!
# A reproducible random source

Recipients can be drawn at random, yet the same seed has to give the same draws on every machine.
The source is the ChaCha stream with twelve rounds: a 64-bit seed is stretched to a 256-bit key,
and the stream under that key is read as consecutive 64-bit words.
-/

namespace TransferLoad.Crypto.ChaCha

def rotateLeft (word : UInt32) (count : UInt32) : UInt32 :=
  (word <<< count) ||| (word >>> (32 - count))

/-- The words at the front of every block. -/
def constants : Vector UInt32 4 := #v[0x61707865, 0x3320646e, 0x79622d32, 0x6b206574]

/-- The stream has no message to mix in. -/
def noMessage : Words := Vector.replicate 16 0

/-- The block with the given number of the stream under a key. -/
def block (key : Vector UInt32 8) (number : Nat) : Words :=
  let start : Words :=
    constants ++ key ++ #v[UInt32.ofNat number, UInt32.ofNat (number / UInt32.size), 0, 0]
  let mixed := (List.range 6).foldl (fun v _ => Words.round rotateLeft v noMessage) start
  mixed.zipWith (· + ·) start

/-- A place in the stream under a key, counted in 64-bit words. -/
structure Stream where
  key : Vector UInt32 8
  position : Nat

/-- One step of the congruential generator that stretches a seed. -/
def stretchStep (state : UInt64) : UInt64 :=
  state * 6364136223846793005 + 11634580027462260723

/-- The word that a state of the stretching generator shows: its high bits, folded and rotated. -/
def stretchWord (state : UInt64) : UInt32 :=
  let folded := (((state >>> 18) ^^^ state) >>> 27).toUInt32
  let turn := (state >>> 59).toUInt32
  (folded >>> turn) ||| (folded <<< ((32 - turn) % 32))

/-- The state after so many stretching steps. -/
def stretchState (seed : UInt64) : Nat → UInt64
  | 0 => seed
  | steps + 1 => stretchStep (stretchState seed steps)

/-- The stream that belongs to a seed, at its beginning. -/
def Stream.ofSeed (seed : UInt64) : Stream where
  key := Vector.ofFn fun i => stretchWord (stretchState seed (i.val + 1))
  position := 0

/-- The word at the current position, low half first, and the place after it. -/
def Stream.next (s : Stream) : UInt64 × Stream :=
  let words := block s.key (s.position / 8)
  let low := words.toArray.getD (2 * (s.position % 8)) 0
  let high := words.toArray.getD (2 * (s.position % 8) + 1) 0
  (high.toUInt64 <<< 32 ||| low.toUInt64, { s with position := s.position + 1 })

/-- The largest low half of a product that is accepted: the bound, shifted to the top of the word,
less one. -/
def acceptedLow (bound : Nat) : Nat :=
  bound * (1 <<< (63 - bound.log2)) - 1

/-- A number below the bound within so many attempts: the high half of a word times the bound, where
words whose low half falls past the last whole interval are thrown away. -/
def Stream.belowWithin (bound : Nat) : (attempts : Nat) → Stream → Nat × Stream
  | 0, s => (s.next.1.toNat * bound / UInt64.size, s.next.2)
  | attempts + 1, s =>
    let product := s.next.1.toNat * bound
    if product % UInt64.size ≤ acceptedLow bound then (product / UInt64.size, s.next.2)
    else belowWithin bound attempts s.next.2

/-- A number below the bound, each equally likely. A word is thrown away at most every second time,
so a thousand attempts in a row do not fail. -/
def Stream.below (bound : Nat) (s : Stream) : Nat × Stream :=
  s.belowWithin bound 1000

theorem Stream.belowWithin_lt {bound : Nat} (hbound : 0 < bound) (attempts : Nat) (s : Stream) :
    (s.belowWithin bound attempts).1 < bound := by
  induction attempts generalizing s with
  | zero =>
    have := s.next.1.toNat_lt
    exact Nat.div_lt_of_lt_mul (Nat.mul_lt_mul_of_pos_right this hbound)
  | succ attempts ih =>
    simp only [belowWithin]
    split
    · have := s.next.1.toNat_lt
      exact Nat.div_lt_of_lt_mul (Nat.mul_lt_mul_of_pos_right this hbound)
    · exact ih _

theorem Stream.below_lt {bound : Nat} (hbound : 0 < bound) (s : Stream) : (s.below bound).1 < bound :=
  belowWithin_lt hbound 1000 s

end TransferLoad.Crypto.ChaCha
