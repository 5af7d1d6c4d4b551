import ZoneCatalog.Crypto.Ed25519
import ZoneCatalog.Dnssec.Dnskey
import ZoneCatalog.Dnssec.PrivateKey

/-! Key pairs that sign. A pair is only made of halves that belong together. -/
namespace ZoneCatalog

/-- A secret that signs under one of the algorithms. -/
inductive SigningKey where
  | ecdsaP256 (secret : Nat)
  | ecdsaP384 (secret : Nat)
  | ed25519 (seed : Bytes)
deriving DecidableEq

namespace SigningKey

def algorithm : SigningKey → Algorithm
  | .ecdsaP256 _ => .ecdsaP256
  | .ecdsaP384 _ => .ecdsaP384
  | .ed25519 _ => .ed25519

def publicKey : SigningKey → Bytes
  | .ecdsaP256 secret => Ecdsa.p256.publicKey secret
  | .ecdsaP384 secret => Ecdsa.p384.publicKey secret
  | .ed25519 seed => Ed25519.publicKey seed

/-- A secret number that is out of range is refused for its value. -/
def orInvalid : Option SigningKey → Except Rejection SigningKey
  | some key => .ok key
  | none => .error .invalidComponent

def ofSecret (algorithm : Algorithm) (secret : Bytes) : Except Rejection SigningKey :=
  match algorithm with
  | .ecdsaP256 => orInvalid ((Ecdsa.p256.secret? secret).map .ecdsaP256)
  | .ecdsaP384 => orInvalid ((Ecdsa.p384.secret? secret).map .ecdsaP384)
  | .ed25519 => if secret.length = 32 then .ok (.ed25519 secret) else .error .invalidEncoding

/-- The key pair of two stored halves. They have to name one algorithm, and the public half has to
be the one of the secret. -/
def ofParts (published : Dnskey) (secret : PrivateKey) : Except DnssecError SigningKey := do
  if published.algorithm.number ≠ secret.algorithm then
    throw (.algorithmMismatch published.algorithm.number secret.algorithm)
  let key ← (ofSecret published.algorithm secret.secret).mapError .keyRejected
  if key.publicKey ≠ published.publicKey then throw (.keyRejected .inconsistentComponents)
  return key

def orFailed : Option Bytes → Except DnssecError Bytes
  | some signature => .ok signature
  | none => .error .signing

def sign (key : SigningKey) (message : Bytes) : Except DnssecError Bytes :=
  match key with
  | .ecdsaP256 secret => orFailed (Ecdsa.p256.sign secret message)
  | .ecdsaP384 secret => orFailed (Ecdsa.p384.sign secret message)
  | .ed25519 seed => .ok (Ed25519.sign seed message)

def summary (key : SigningKey) : String :=
  "SigningKey \x7b algorithm: " ++ key.algorithm.name ++ ", .. \x7d"

end SigningKey

def Dnskey.verifies (k : Dnskey) (message signature : Bytes) : Bool :=
  match k.algorithm with
  | .ecdsaP256 => Ecdsa.p256.verify k.publicKey message signature
  | .ecdsaP384 => Ecdsa.p384.verify k.publicKey message signature
  | .ed25519 => Ed25519.verify k.publicKey message signature

end ZoneCatalog
