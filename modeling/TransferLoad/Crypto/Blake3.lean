import TransferLoad.Bytes
import TransferLoad.Crypto.Mixing

/-!
# BLAKE3

The hash that names a signed payload. The message is cut into chunks of 1024 bytes, the chunks are
the leaves of a binary tree whose left subtrees are full, and the node at the top gives the digest.
-/

namespace TransferLoad.Crypto.Blake3

/-- Eight words that a node of the tree hands to its parent. -/
abbrev Chaining := Vector UInt32 8

def initialValue : Chaining :=
  #v[0x6a09e667, 0xbb67ae85, 0x3c6ef372, 0xa54ff53a, 0x510e527f, 0x9b05688c, 0x1f83d9ab, 0x5be0cd19]

def chunkStart : UInt32 := 1
def chunkEnd : UInt32 := 2
def parent : UInt32 := 4
def root : UInt32 := 8

def rotateRight (word : UInt32) (count : UInt32) : UInt32 :=
  (word >>> count) ||| (word <<< (32 - count))

def permute (m : Words) : Words :=
  #v[2, 6, 3, 10, 7, 0, 4, 13, 1, 11, 12, 5, 9, 14, 15, 8].map fun (place : Nat) => m[place]!

def rounds : (count : Nat) → (m v : Words) → Words
  | 0, _, v => v
  | count + 1, m, v => rounds count (permute m) (Words.round rotateRight v m)

/-- What a node compresses last: its input words and the flags that tell its place in the tree. -/
structure Node where
  input : Chaining
  block : Words
  counter : Nat
  size : Nat
  flags : UInt32

def compress (node : Node) : Chaining :=
  let low := UInt32.ofNat node.counter
  let high := UInt32.ofNat (node.counter / UInt32.size)
  let start : Words :=
    (node.input ++ initialValue.take 4) ++ #v[low, high, UInt32.ofNat node.size, node.flags]
  let v := rounds 7 node.block start
  let front : Chaining := v.take 8
  front.zipWith (· ^^^ ·) (v.drop 8)

/-- The sixteen words of a block of at most 64 bytes, the rest zero. -/
def words (block : Bytes) : Words :=
  Vector.ofFn fun i => UInt32.ofNat (Bytes.toNatLE ((block.drop (4 * i.val)).take 4))

/-- Folds the blocks of one chunk; the last stays open, since it may turn out to be the root. -/
def chunkNode (counter : Nat) (input : Chaining) (flags : UInt32) : List Bytes → Node
  | [] => { input, block := words [], counter, size := 0, flags := flags ||| chunkEnd }
  | [last] => { input, block := words last, counter, size := last.length, flags := flags ||| chunkEnd }
  | block :: rest =>
    chunkNode counter
      (compress { input, block := words block, counter, size := block.length, flags }) 0 rest

def leaf (counter : Nat) (chunk : Bytes) : Node :=
  chunkNode counter initialValue chunkStart (Bytes.chunks 63 chunk)

def join (left right : Chaining) : Node where
  input := initialValue
  block := (left ++ right).cast rfl
  counter := 0
  size := 64
  flags := parent

/-- The largest power of two strictly below `n`, doubling from `power`. -/
def leftSize (n : Nat) : (fuel : Nat) → (power : Nat) → Nat
  | 0, power => power
  | fuel + 1, power => if 2 * power < n then leftSize n fuel (2 * power) else power

/-- The node over some consecutive chunks, the first of which has the given number. The fuel bounds
the height of the tree and is never used up when it is at least the number of chunks. -/
def tree : (fuel counter : Nat) → List Bytes → Node
  | _, counter, [] => leaf counter []
  | _, counter, [chunk] => leaf counter chunk
  | 0, counter, chunk :: _ => leaf counter chunk
  | fuel + 1, counter, chunks =>
    let left := leftSize chunks.length chunks.length 1
    join (compress (tree fuel counter (chunks.take left)))
      (compress (tree fuel (counter + left) (chunks.drop left)))

/-- The 32-byte hash of a message. -/
def digest (message : Bytes) : Bytes :=
  let chunks := Bytes.chunks 1023 message
  let top := tree chunks.length 0 chunks
  (compress { top with flags := top.flags ||| root }).toList.flatMap fun word =>
    Bytes.ofNatLE 4 word.toNat

@[simp] theorem length_digest (message : Bytes) : (digest message).length = 32 := by
  simp [digest, List.length_flatMap, List.map_const']

end TransferLoad.Crypto.Blake3
