import ZoneCatalog.Crypto.Modular
import ZoneCatalog.Crypto.Sha2

/-! ECDSA on the curves P-256 and P-384. The nonce is derived from the secret and the digest, so
that signing is a function of the secret and the message. -/
namespace ZoneCatalog.Ecdsa

/-- A curve `y ^ 2 = x ^ 3 - 3 * x + b` with a base point of prime order, and the hash function
that goes with it. -/
structure Curve where
  prime : Nat
  b : Nat
  order : Nat
  baseX : Nat
  baseY : Nat
  size : Nat
  hash : Bytes → Bytes

def p256 : Curve where
  prime := Nat.pow 2 256 - Nat.pow 2 224 + Nat.pow 2 192 + Nat.pow 2 96 - 1
  b := 0x5ac635d8aa3a93e7b3ebbd55769886bc651d06b0cc53b0f63bce3c3e27d2604b
  order := 0xffffffff00000000ffffffffffffffffbce6faada7179e84f3b9cac2fc632551
  baseX := 0x6b17d1f2e12c4247f8bce6e563a440f277037d812deb33a0f4a13945d898c296
  baseY := 0x4fe342e2fe1a7f9b8ee7eb4a7c0f9e162bce33576b315ececbb6406837bf51f5
  size := 32
  hash := Sha2.hash Sha2.sha256

def p384 : Curve where
  prime := Nat.pow 2 384 - Nat.pow 2 128 - Nat.pow 2 96 + Nat.pow 2 32 - 1
  b := 0xb3312fa7e23ee7e4988e056be3f82d19181d9c6efe8141120314088f5013875ac656398d8a2ed19d2a85c8edd3ec2aef
  order := 0xffffffffffffffffffffffffffffffffffffffffffffffffc7634d81f4372ddf581a0db248b0a77aecec196accc52973
  baseX := 0xaa87ca22be8b05378eb1c71ef320ad746e1d3b628ba79b9859f741e082542a385502f25dbf55296c3a545e3872760ab7
  baseY := 0x3617de4a96262c6f5d9e98bf9292dc29f8f41dbd289a147ce9da3113b5f0b8c00a60b1ce1d7e819d7a431d7c90ea0e5f
  size := 48
  hash := Sha2.hash Sha2.sha384

/-- A point in Jacobian coordinates: the affine point is `(x / z ^ 2, y / z ^ 3)`, and `z = 0` is
the neutral point. -/
structure Point where
  x : Nat
  y : Nat
  z : Nat

namespace Curve

variable (c : Curve)

def neutral : Point := ⟨1, 1, 0⟩

def base : Point := ⟨c.baseX, c.baseY, 1⟩

def double (p : Point) : Point :=
  let m := c.prime
  let delta := p.z * p.z % m
  let gamma := p.y * p.y % m
  let beta := p.x * gamma % m
  let alpha := 3 * Modular.sub m p.x delta * (p.x + delta) % m
  let x := Modular.sub m (alpha * alpha % m) (8 * beta)
  let y := Modular.sub m (alpha * Modular.sub m (4 * beta) x % m) (8 * gamma * gamma)
  ⟨x, y, 2 * p.y * p.z % m⟩

def add (p q : Point) : Point :=
  if p.z = 0 then q
  else if q.z = 0 then p
  else
    let m := c.prime
    let pz2 := p.z * p.z % m
    let qz2 := q.z * q.z % m
    let u1 := p.x * qz2 % m
    let u2 := q.x * pz2 % m
    let s1 := p.y * qz2 % m * q.z % m
    let s2 := q.y * pz2 % m * p.z % m
    let h := Modular.sub m u2 u1
    let r := Modular.sub m s2 s1
    if h = 0 then if r = 0 then c.double p else neutral
    else
      let h2 := h * h % m
      let h3 := h2 * h % m
      let v := u1 * h2 % m
      let x := Modular.sub m (r * r % m) (h3 + 2 * v)
      let y := Modular.sub m (r * Modular.sub m v x % m) (s1 * h3)
      ⟨x, y, p.z * q.z % m * h % m⟩

def times (n : Nat) (p : Point) : Point :=
  (Modular.bits (8 * c.size) n).foldl (fun acc bit =>
    let doubled := c.double acc
    if bit then c.add doubled p else doubled) neutral

def affine (p : Point) : Option (Nat × Nat) :=
  if p.z = 0 then none
  else
    let inverse := Modular.inverse c.prime p.z
    let squared := inverse * inverse % c.prime
    some (p.x * squared % c.prime, p.y * squared % c.prime * inverse % c.prime)

/-- The public key of a secret: both coordinates of its multiple of the base point. -/
def publicKey (secret : Nat) : Bytes :=
  match c.affine (c.times secret c.base) with
  | some (x, y) => Bytes.ofNatBE c.size x ++ Bytes.ofNatBE c.size y
  | none => []

def decode (key : Bytes) : Option Point := do
  let x := Bytes.toNatBE (key.take c.size)
  let y := Bytes.toNatBE (key.drop c.size)
  guard (key.length = 2 * c.size ∧ x < c.prime ∧ y < c.prime)
  guard (y * y % c.prime = (x * x * x + Modular.sub c.prime 0 (3 * x) + c.b) % c.prime)
  return ⟨x, y, 1⟩

/-- A secret number from its bytes, which must be as many as those of a coordinate. -/
def secret? (bytes : Bytes) : Option Nat :=
  let n := Bytes.toNatBE bytes
  if bytes.length = c.size ∧ 1 ≤ n ∧ n < c.order then some n else none

/-- The nonce of a digest for one of several attempts. -/
def nonce (secret : Nat) (digest : Bytes) (attempt : UInt8) : Nat :=
  let seed := Bytes.ofNatBE c.size secret ++ digest ++ [attempt]
  let wide := Sha2.hash Sha2.sha512 (0 :: seed) ++ Sha2.hash Sha2.sha512 (1 :: seed)
  Bytes.toNatBE wide % (c.order - 1) + 1

/-- The two halves of a signature made with a given nonce, if neither is zero. -/
def signWith (secret : Nat) (digest : Bytes) (k : Nat) : Option (Nat × Nat) := do
  let (x, _) ← c.affine (c.times k c.base)
  let r := x % c.order
  let s := Modular.inverse c.order k * (Bytes.toNatBE digest + r * secret) % c.order
  guard (r ≠ 0 ∧ s ≠ 0)
  return (r, s)

/-- The signature of a message; `none` if a few nonces in a row are unfit. -/
def sign (secret : Nat) (message : Bytes) : Option Bytes :=
  let digest := c.hash message
  let attempts : List UInt8 := [0, 1, 2, 3]
  (attempts.findSome? fun a => c.signWith secret digest (c.nonce secret digest a)).map
    fun (r, s) => Bytes.ofNatBE c.size r ++ Bytes.ofNatBE c.size s

def verify (key message signature : Bytes) : Bool :=
  let r := Bytes.toNatBE (signature.take c.size)
  let s := Bytes.toNatBE (signature.drop c.size)
  let inRange := fun n => decide (1 ≤ n ∧ n < c.order)
  match c.decode key with
  | none => false
  | some q =>
    let w := Modular.inverse c.order s
    let u := Bytes.toNatBE (c.hash message) * w % c.order
    let v := r * w % c.order
    let sum := c.add (c.times u c.base) (c.times v q)
    signature.length == 2 * c.size && inRange r && inRange s &&
      (c.affine sum).any fun (x, _) => x % c.order == r

end Curve
end ZoneCatalog.Ecdsa
