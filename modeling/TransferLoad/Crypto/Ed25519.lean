import TransferLoad.Crypto.Sha512

/-!
# Ed25519 signatures

Signing and checking over the twisted Edwards curve `-x² + y² = 1 + d x² y²` modulo `2^255 - 19`.

The check is the plain one: the equation `R = s B - k A` is tested without clearing the cofactor, `R`
is compared as bytes, `s` must be below the group order, and a public key of small order is allowed.
-/

namespace TransferLoad.Crypto.Ed25519

/-! ### The field -/

def fieldOrder : Nat := (1 <<< 255) - 19

/-- Order of the base point. -/
def groupOrder : Nat := (1 <<< 252) + 27742317777372353535851937790883648493

def addF (x y : Nat) : Nat := (x + y) % fieldOrder
def subF (x y : Nat) : Nat := (x + (fieldOrder - y % fieldOrder)) % fieldOrder
def mulF (x y : Nat) : Nat := x * y % fieldOrder

/-- Power by repeated squaring. -/
def powF (x : Nat) (exponent : Nat) : Nat :=
  if h : exponent = 0 then 1
  else
    have : exponent / 2 < exponent := by omega
    let half := powF (mulF x x) (exponent / 2)
    if exponent % 2 = 1 then mulF half x else half
termination_by exponent

/-- The inverse of a nonzero element, by Fermat's theorem. -/
def invF (x : Nat) : Nat := powF x (fieldOrder - 2)

/-- The curve's coefficient, `-121665 / 121666`. -/
def curveD : Nat := 0x52036cee2b6ffe738cc740797779e89800700a4d4141d8ab75eb4dca135978a3

def sqrtMinusOne : Nat := 0x2b8324804fc1df0b2b4d00993dfbd7a72f431806ad2fe478c4ee1b274a0ea0b0

/-! ### The group -/

/-- A point in extended coordinates: `x = X / Z`, `y = Y / Z`, `x y = T / Z`. -/
structure Point where
  x : Nat
  y : Nat
  z : Nat
  t : Nat

def Point.zero : Point := ⟨0, 1, 1, 0⟩

def Point.base : Point :=
  let x := 0x216936d3cd6e53fec0a4e231fdd6dc5c692cc7609525a7b2c9562d608f25d51a
  let y := 0x6666666666666666666666666666666666666666666666666666666666666658
  ⟨x, y, 1, mulF x y⟩

/-- The addition law, which holds for equal points as well. -/
def Point.add (p q : Point) : Point :=
  let a := mulF (subF p.y p.x) (subF q.y q.x)
  let b := mulF (addF p.y p.x) (addF q.y q.x)
  let c := mulF (mulF (2 * curveD) p.t) q.t
  let d := mulF (2 * p.z) q.z
  let e := subF b a
  let f := subF d c
  let g := addF d c
  let h := addF b a
  ⟨mulF e f, mulF g h, mulF f g, mulF e h⟩

def Point.neg (p : Point) : Point := ⟨subF 0 p.x, p.y, p.z, subF 0 p.t⟩

/-- A multiple of a point by doubling and adding. -/
def Point.scale (n : Nat) (p : Point) : Point :=
  if h : n = 0 then zero
  else
    have : n / 2 < n := by omega
    let doubled := scale (n / 2) (p.add p)
    if n % 2 = 1 then doubled.add p else doubled
termination_by n

/-- The `y` coordinate in 32 bytes, with the parity of `x` in the top bit. -/
def Point.encode (p : Point) : Bytes :=
  let inverse := invF p.z
  let x := mulF p.x inverse
  let y := mulF p.y inverse
  Bytes.ofNatLE 32 (y + x % 2 * (1 <<< 255))

/-- The even square root of `u / v`, if there is one. -/
def sqrtRatio? (u v : Nat) : Option Nat :=
  let v3 := mulF (mulF v v) v
  let v7 := mulF (mulF v3 v3) v
  let root := mulF (mulF u v3) (powF (mulF u v7) ((fieldOrder - 5) / 8))
  let check := mulF v (mulF root root)
  let found :=
    if check = u then some root
    else if check = subF 0 u then some (mulF root sqrtMinusOne)
    else none
  found.map fun r => if r % 2 = 1 then subF 0 r else r

/-- Reads a point back. A `y` at or above the field's order is taken modulo the order. -/
def Point.decode? (bytes : Bytes) : Option Point :=
  let number := Bytes.toNatLE bytes
  let y := number % (1 <<< 255) % fieldOrder
  let square := mulF y y
  (sqrtRatio? (subF square 1) (addF (mulF curveD square) 1)).map fun root =>
    let x := if number / (1 <<< 255) % 2 = 1 then subF 0 root else root
    ⟨x, y, 1, mulF x y⟩

/-! ### Keys and signatures -/

/-- Clears the cofactor's bits and fixes the highest bit of the scalar. -/
def clamp (n : Nat) : Nat :=
  n % (1 <<< 254) / 8 * 8 + (1 <<< 254)

/-- What signing needs of a seed. -/
structure ExpandedKey where
  scalar : Nat
  nonceKey : Bytes
  publicKey : Bytes

def ExpandedKey.ofSeed (seed : Bytes) : ExpandedKey :=
  let hash := Sha512.digest seed
  let scalar := clamp (Bytes.toNatLE (hash.take 32))
  { scalar, nonceKey := hash.drop 32, publicKey := (Point.base.scale scalar).encode }

/-- A secret seed, kept together with its expansion. -/
structure SigningKey where
  seed : Bytes
  expanded : ExpandedKey
  expanded_eq : expanded = ExpandedKey.ofSeed seed

def SigningKey.ofSeed (seed : Bytes) : SigningKey := ⟨seed, ExpandedKey.ofSeed seed, rfl⟩

/-- The 32 bytes under which the key's signatures are checked. -/
def SigningKey.publicKey (key : SigningKey) : Bytes32 :=
  ⟨key.expanded.publicKey, by simp [key.expanded_eq, ExpandedKey.ofSeed, Point.encode]⟩

/-- A hash of some bytes, as a scalar. -/
def hashScalar (bytes : Bytes) : Nat :=
  Bytes.toNatLE (Sha512.digest bytes) % groupOrder

def SigningKey.sign (key : SigningKey) (message : Bytes) : Bytes :=
  let nonce := hashScalar (key.expanded.nonceKey ++ message)
  let commitment := (Point.base.scale nonce).encode
  let challenge := hashScalar (commitment ++ key.expanded.publicKey ++ message)
  commitment ++ Bytes.ofNatLE 32 ((nonce + challenge * key.expanded.scalar) % groupOrder)

/-- Whether a signature belongs to a message under a public key. -/
def verify (publicKey : Bytes32) (message signature : Bytes) : Bool :=
  signature.length == 64 &&
    match Point.decode? publicKey.val with
    | none => false
    | some key =>
      let commitment := signature.take 32
      let response := Bytes.toNatLE (signature.drop 32)
      let challenge := hashScalar (commitment ++ publicKey.val ++ message)
      response < groupOrder &&
        ((Point.base.scale response).add (key.neg.scale challenge)).encode == commitment

@[simp] theorem length_sign (key : SigningKey) (message : Bytes) :
    (key.sign message).length = 64 := by
  simp [SigningKey.sign, Point.encode]

end TransferLoad.Crypto.Ed25519
