import ZoneCatalog.Crypto.Ecdsa

/-! The algorithms that zones are signed with. -/
namespace ZoneCatalog

inductive Algorithm where
  | ecdsaP256
  | ecdsaP384
  | ed25519
deriving DecidableEq, Repr

namespace Algorithm

def number : Algorithm → UInt8
  | .ecdsaP256 => 13
  | .ecdsaP384 => 14
  | .ed25519 => 15

def ofNumber? (n : UInt8) : Option Algorithm :=
  if n = 13 then some .ecdsaP256
  else if n = 14 then some .ecdsaP384
  else if n = 15 then some .ed25519
  else none

def name : Algorithm → String
  | .ecdsaP256 => "ECDSAP256SHA256"
  | .ecdsaP384 => "ECDSAP384SHA384"
  | .ed25519 => "ED25519"

def publicKeySize : Algorithm → Nat
  | .ecdsaP256 => 64
  | .ecdsaP384 => 96
  | .ed25519 => 32

end Algorithm
end ZoneCatalog
