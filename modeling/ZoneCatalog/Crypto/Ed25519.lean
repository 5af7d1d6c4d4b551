import ZoneCatalog.Crypto.Modular
import ZoneCatalog.Crypto.Sha2

/-! Ed25519 signatures. Signing is a function of the seed and the message. -/
namespace ZoneCatalog.Ed25519

def prime : Nat := Nat.pow 2 255 - 19

def order : Nat := Nat.pow 2 252 + 27742317777372353535851937790883648493

def curveD : Nat := 0x52036cee2b6ffe738cc740797779e89800700a4d4141d8ab75eb4dca135978a3

/-- A point in extended coordinates: the affine point is `(x / z, y / z)`, and `x * y = z * t`. -/
structure Point where
  x : Nat
  y : Nat
  z : Nat
  t : Nat

namespace Point

def zero : Point := ⟨0, 1, 1, 0⟩

def ofAffine (x y : Nat) : Point := ⟨x, y, 1, x * y % prime⟩

def base : Point :=
  ofAffine 0x216936d3cd6e53fec0a4e231fdd6dc5c692cc7609525a7b2c9562d608f25d51a
    0x6666666666666666666666666666666666666666666666666666666666666658

def add (p q : Point) : Point :=
  let a := Modular.sub prime p.y p.x * Modular.sub prime q.y q.x % prime
  let b := (p.y + p.x) * (q.y + q.x) % prime
  let c := p.t * (2 * curveD) % prime * q.t % prime
  let d := p.z * 2 * q.z % prime
  let e := Modular.sub prime b a
  let f := Modular.sub prime d c
  let g := (d + c) % prime
  let h := (b + a) % prime
  ⟨e * f % prime, g * h % prime, f * g % prime, e * h % prime⟩

/-- A multiple of a point by a factor below `2 ^ 256`. -/
def times (n : Nat) (p : Point) : Point :=
  (Modular.bits 256 n).foldl (fun acc bit =>
    let doubled := acc.add acc
    if bit then doubled.add p else doubled) zero

def neg (p : Point) : Point := { p with x := Modular.sub prime 0 p.x, t := Modular.sub prime 0 p.t }

/-- The 32 bytes of a point: its affine `y`, and the parity of its `x` in the highest bit. -/
def encode (p : Point) : Bytes :=
  let inverse := Modular.inverse prime p.z
  let x := p.x * inverse % prime
  let y := p.y * inverse % prime
  Bytes.ofNatLE 32 (y + x % 2 * Nat.pow 2 255)

def decode (bytes : Bytes) : Option Point := do
  guard (bytes.length = 32)
  let n := Bytes.toNatLE bytes
  let y := n % Nat.pow 2 255
  let parity := n / Nat.pow 2 255
  guard (y < prime)
  let u := Modular.sub prime (y * y % prime) 1
  let v := (curveD * (y * y % prime) + 1) % prime
  let candidate :=
    u * Modular.pow prime v 3 % prime *
      Modular.pow prime (u * Modular.pow prime v 7 % prime) ((prime - 5) / 8) % prime
  let check := v * (candidate * candidate % prime) % prime
  let root ←
    if check = u then some candidate
    else if check = Modular.sub prime 0 u then
      some (candidate * Modular.pow prime 2 ((prime - 1) / 4) % prime)
    else none
  guard ¬ (root = 0 ∧ parity = 1)
  return ofAffine (if root % 2 = parity then root else Modular.sub prime 0 root) y

end Point

/-- What a seed expands to: the factor of the public key, and the bytes that nonces depend on. -/
structure Secret where
  factor : Nat
  nonceKey : Bytes

def Secret.ofSeed (seed : Bytes) : Secret :=
  let digest := Sha2.hash Sha2.sha512 seed
  let n := Bytes.toNatLE (digest.take 32)
  ⟨Nat.pow 2 254 + n % Nat.pow 2 254 / 8 * 8, digest.drop 32⟩

def publicKey (seed : Bytes) : Bytes :=
  (Point.times (Secret.ofSeed seed).factor Point.base).encode

def reduce (bytes : Bytes) : Nat := Bytes.toNatLE (Sha2.hash Sha2.sha512 bytes) % order

/-- The 64 bytes of the signature of a message under a seed. -/
def sign (seed message : Bytes) : Bytes :=
  let secret := Secret.ofSeed seed
  let r := reduce (secret.nonceKey ++ message)
  let point := (Point.times r Point.base).encode
  let k := reduce (point ++ publicKey seed ++ message)
  point ++ Bytes.ofNatLE 32 ((r + k * secret.factor) % order)

def verify (key message signature : Bytes) : Bool :=
  let s := Bytes.toNatLE (signature.drop 32)
  match Point.decode key with
  | none => false
  | some a =>
    let k := reduce (signature.take 32 ++ key ++ message)
    signature.length == 64 && s < order &&
      ((Point.times s Point.base).add (Point.times k a.neg)).encode == signature.take 32

end ZoneCatalog.Ed25519
