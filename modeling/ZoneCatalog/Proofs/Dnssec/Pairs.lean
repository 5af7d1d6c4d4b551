import ZoneCatalog.Dnssec.ZoneKey
import ZoneCatalog.Proofs.Data.Except

/-! Key pairs and what they sign. A pair is only made of halves that belong together, and a
signature is made over the bytes that it covers while it is still without itself. -/
namespace ZoneCatalog

namespace SigningKey

variable {published : Dnskey} {secret : PrivateKey} {key : SigningKey} {cause : DnssecError}

private theorem orInvalid_eq_ok {made : Option SigningKey} :
    orInvalid made = .ok key ↔ made = some key := by
  cases made <;> simp [orInvalid]

theorem algorithm_ofSecret {algorithm : Algorithm} {bytes : Bytes}
    (h : ofSecret algorithm bytes = .ok key) : key.algorithm = algorithm := by
  cases algorithm with
  | ecdsaP256 =>
    obtain ⟨n, -, rfl⟩ := Option.map_eq_some_iff.1 (orInvalid_eq_ok.1 h)
    rfl
  | ecdsaP384 =>
    obtain ⟨n, -, rfl⟩ := Option.map_eq_some_iff.1 (orInvalid_eq_ok.1 h)
    rfl
  | ed25519 =>
    rw [ofSecret] at h
    split at h
    · cases h
      rfl
    · cases h

/-- A key pair with the public half as it is published and the secret half as it is stored. -/
structure Pairs (key : SigningKey) (published : Dnskey) (secret : PrivateKey) : Prop where
  number : published.algorithm.number = secret.algorithm
  made : ofSecret key.algorithm secret.secret = .ok key
  algorithm : key.algorithm = published.algorithm
  publicKey : key.publicKey = published.publicKey

theorem ofParts_eq_ok : ofParts published secret = .ok key ↔ key.Pairs published secret := by
  constructor
  · intro h
    rw [ofParts] at h
    split at h
    · cases h
    · rename_i number
      obtain ⟨key, made, h⟩ := Except.bind_eq_ok.1 h
      have made := Except.mapError_eq_ok.1 made
      dsimp only at h
      split at h
      · cases h
      · rename_i same
        cases h
        have algorithm := algorithm_ofSecret made
        exact ⟨Decidable.not_not.1 number, algorithm ▸ made, algorithm, Decidable.not_not.1 same⟩
  · rintro ⟨number, made, algorithm, publicKey⟩
    rw [algorithm] at made
    rw [ofParts, if_neg (not_not_intro number), made]
    exact if_neg (not_not_intro publicKey)

end SigningKey

namespace Rrsig

variable {key : SigningKey} {tag : UInt16} {signer site : DomainName} {type : RecordType}
  {ttl : UInt32} {rdatas : List Bytes} {first last : Seconds} {r : Rrsig}

/-- A signature as far as it is there before it is made. -/
def draft (key : SigningKey) (tag : UInt16) (signer site : DomainName) (type : RecordType)
    (ttl : UInt32) (first last : Seconds) : Rrsig where
  owner := site.lower
  typeCovered := type
  algorithm := key.algorithm
  labels := UInt8.ofNat site.countedLabels
  originalTtl := ttl
  expiration := last.serial
  inception := first.serial
  keyTag := tag
  signerName := signer.lower
  signature := []

theorem sign_eq_ok : sign key tag signer site type ttl rdatas first last = .ok r ↔
    ∃ message signature, (draft key tag signer site type ttl first last).signedData rdatas =
      .ok message ∧ key.sign message = .ok signature ∧
        r = { draft key tag signer site type ttl first last with signature } := by
  constructor
  · intro h
    obtain ⟨message, covered, h⟩ := Except.bind_eq_ok.1 h
    obtain ⟨signature, signed, h⟩ := Except.bind_eq_ok.1 h
    exact ⟨message, signature, Except.mapError_eq_ok.1 covered, signed, (Except.ok.inj h).symm⟩
  · rintro ⟨message, signature, covered, signed, rfl⟩
    refine Except.bind_eq_ok.2 ⟨message, Except.mapError_eq_ok.2 covered, ?_⟩
    exact Except.bind_eq_ok.2 ⟨signature, signed, rfl⟩

end Rrsig
end ZoneCatalog
