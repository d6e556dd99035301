/-!
# Mixing sixteen words

The hash and the stream share their core. Sixteen words stand in a square of four rows; a round mixes
the four words of each column and then those of each diagonal, by adding, by exclusive or and by
rotating, and takes in two message words every time. The two differ in which way words are rotated.
-/

namespace TransferLoad.Crypto

abbrev Words := Vector UInt32 16

namespace Words

variable (rotate : UInt32 → UInt32 → UInt32)

/-- Mixes the words at four places with two message words. -/
def quarter (v : Words) (a b c d : Fin 16) (x y : UInt32) : Words :=
  let v := v.set a (v[a] + v[b] + x)
  let v := v.set d (rotate (v[d] ^^^ v[a]) 16)
  let v := v.set c (v[c] + v[d])
  let v := v.set b (rotate (v[b] ^^^ v[c]) 12)
  let v := v.set a (v[a] + v[b] + y)
  let v := v.set d (rotate (v[d] ^^^ v[a]) 8)
  let v := v.set c (v[c] + v[d])
  v.set b (rotate (v[b] ^^^ v[c]) 7)

/-- Mixes the columns and then the diagonals with the sixteen message words. -/
def round (v m : Words) : Words :=
  let v := quarter rotate v 0 4 8 12 m[0] m[1]
  let v := quarter rotate v 1 5 9 13 m[2] m[3]
  let v := quarter rotate v 2 6 10 14 m[4] m[5]
  let v := quarter rotate v 3 7 11 15 m[6] m[7]
  let v := quarter rotate v 0 5 10 15 m[8] m[9]
  let v := quarter rotate v 1 6 11 12 m[10] m[11]
  let v := quarter rotate v 2 7 8 13 m[12] m[13]
  quarter rotate v 3 4 9 14 m[14] m[15]

end Words

end TransferLoad.Crypto
