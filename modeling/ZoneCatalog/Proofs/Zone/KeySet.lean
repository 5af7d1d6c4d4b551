import ZoneCatalog.Proofs.Zone.Signing

/-! The key set of a zone. Whatever the store answered, keys that were loaded carry the flags of
their roles and one time to live, and the signature over them is one that validators can check. -/
namespace ZoneCatalog

open Program (Event)

section Loading

variable {keys : StoreKeys} {zone : String} {role : KeyRole} {now : Seconds} {h : List Event}
  {apex : DomainName} {zsk ksk : StoredKey} {s : ZoneSigning}

/-! Keys that can be had are loaded. -/

private theorem yields_loadHalf (key text : String) :
    (loadHalf key).run.Yields [.answered (.get key) (.ok (some text))] (.ok text) :=
  Program.yields_ask.2 ⟨.ok (some text), [], rfl, .done _⟩

/-- The answers of a store that has these texts for the two halves of a key. -/
def toldBoth (keys : StoreKeys) (zone : String) (role : KeyRole) (published secret : String) :
    List Event :=
  [.answered (.get (keys.zoneKey zone role .published)) (.ok (some published)),
    .answered (.get (keys.zoneKey zone role .secret)) (.ok (some secret))]

theorem StoredKey.yields_load {key : StoredKey} {published secret : String}
    (readPublished : Dnskey.parse (keys.zoneKey zone role .published) published = .ok key.published)
    (readSecret : PrivateKey.parse (keys.zoneKey zone role .secret) secret = .ok key.secret) :
    (load keys zone role).run.Yields (toldBoth keys zone role published secret) (.ok key) := by
  have made : (do return ⟨← Dnskey.parse (keys.zoneKey zone role .published) published,
      ← PrivateKey.parse (keys.zoneKey zone role .secret) secret⟩) = Except.ok key :=
    Except.bind_eq_ok.2 ⟨_, readPublished, Except.bind_eq_ok.2 ⟨_, readSecret, rfl⟩⟩
  refine Fallible.yields_bind.2 (.inr ⟨[_], _, published, rfl, yields_loadHalf _ _, ?_⟩)
  refine Fallible.yields_bind.2 (.inr ⟨[_], [], secret, rfl, yields_loadHalf _ _, ?_⟩)
  exact Fallible.yields_ofExcept.2 ⟨rfl, made.symm⟩

namespace ZoneSigning

/-- Keys that are the zone's own, and that there is signing with, are accepted. -/
theorem ofStored_of_pairs {zskRecord kskRecord : Dnskey} {zskSigner kskSigner : SigningKey}
    {rrsig : Rrsig} (zskOwner : zsk.published.owner.same apex.lower)
    (kskOwner : ksk.published.owner.same apex.lower)
    (hzsk : zskRecord = { zsk.published with flags := 256, ttl := ksk.published.ttl })
    (hksk : kskRecord = { ksk.published with flags := 257 })
    (zskPair : zskSigner.Pairs zskRecord zsk.secret)
    (kskPair : kskSigner.Pairs kskRecord ksk.secret)
    (signed : (ZoneKey.loadedAt kskRecord kskSigner now).signSet apex.lower .dnskey kskRecord.ttl
      [zskRecord.rdata, kskRecord.rdata] = .ok rrsig) :
    ofStored zone apex.lower now zsk ksk = .ok ⟨.loadedAt zskRecord zskSigner now,
      .loadedAt kskRecord kskSigner now, [zskRecord, kskRecord], rrsig⟩ := by
  subst hzsk hksk
  refine Except.bind_eq_ok.2 ⟨(), if_pos zskOwner, ?_⟩
  refine Except.bind_eq_ok.2 ⟨(), if_pos kskOwner, ?_⟩
  refine Except.bind_eq_ok.2 ⟨zskSigner, SigningKey.ofParts_eq_ok.2 zskPair, ?_⟩
  refine Except.bind_eq_ok.2 ⟨kskSigner, SigningKey.ofParts_eq_ok.2 kskPair, ?_⟩
  exact Except.bind_eq_ok.2 ⟨rrsig, signed, rfl⟩

theorem yields_load {zskPublished zskSecret kskPublished kskSecret : String}
    (named : DomainName.parse zone.toList = .ok apex)
    (zskPublic : Dnskey.parse (keys.zoneKey zone .zsk .published) zskPublished = .ok zsk.published)
    (zskPrivate : PrivateKey.parse (keys.zoneKey zone .zsk .secret) zskSecret = .ok zsk.secret)
    (kskPublic : Dnskey.parse (keys.zoneKey zone .ksk .published) kskPublished = .ok ksk.published)
    (kskPrivate : PrivateKey.parse (keys.zoneKey zone .ksk .secret) kskSecret = .ok ksk.secret)
    (made : ofStored zone apex.lower now zsk ksk = .ok s) :
    (load keys zone now).run.Yields (toldBoth keys zone .zsk zskPublished zskSecret ++
      toldBoth keys zone .ksk kskPublished kskSecret) (.ok s) := by
  have apexNamed : Except.ok apex =
      (DomainName.parse zone.toList).mapError fun e => DnssecError.proto (.name e) := by
    rw [named]
    rfl
  refine Fallible.yields_bind.2 (.inr ⟨[], _, apex, rfl, ?_, ?_⟩)
  · exact Fallible.yields_ofExcept.2 ⟨rfl, apexNamed⟩
  refine Fallible.yields_bind.2 (.inr ⟨toldBoth .., _, zsk, rfl, ?_, ?_⟩)
  · exact StoredKey.yields_load zskPublic zskPrivate
  refine Fallible.yields_bind.2 (.inr ⟨toldBoth .., [], ksk, rfl, ?_, ?_⟩)
  · exact StoredKey.yields_load kskPublic kskPrivate
  · exact Fallible.yields_ofExcept.2 ⟨rfl, made.symm⟩

/-- Keys that were loaded fit what is stored and one another, whatever the store answered. The key
set is signed by the key signing key over the same bytes for every list of the two records, in any
order and with any repetition, so whoever verifies signatures as they are made accepts it. -/
theorem load_consistent (verifies : Algorithm → Bytes → Bytes → Bytes → Prop)
    (accepts : ∀ key secret message signature, SigningKey.ofSecret key.algorithm secret = .ok key →
      key.sign message = .ok signature → verifies key.algorithm key.publicKey message signature)
    (run : (load keys zone now).run.Yields h (.ok s)) :
    ∃ apex zsk ksk, DomainName.parse zone.toList = .ok apex ∧
      StoredKey.Read zsk h keys zone .zsk ∧ StoredKey.Read ksk h keys zone .ksk ∧
      s.Consistent apex now zsk ksk ∧
      ∀ rdatas, (∀ x, x ∈ rdatas ↔ x = s.zsk.dnskey.rdata ∨ x = s.ksk.dnskey.rdata) →
        ∃ message, s.keySet.rrsig.signedData rdatas = .ok message ∧
          s.ksk.signer.sign message = .ok s.keySet.rrsig.signature ∧
          verifies s.ksk.dnskey.algorithm s.ksk.dnskey.publicKey message
            s.keySet.rrsig.signature := by
  obtain ⟨-, apex, zsk, ksk, named, readZsk, readKsk, fits⟩ := (load_meets keys zone now).of_ok run
  refine ⟨apex, zsk, ksk, named, readZsk, readKsk, fits, fun rdatas same => ?_⟩
  obtain ⟨message, covered, signed⟩ := fits.signature
  have pair := fits.kskPair
  refine ⟨message, ?_, signed, ?_⟩
  · rw [← covered]
    exact Rrsig.signedData_congr _ (by simpa using same)
  · rw [← pair.algorithm, ← pair.publicKey]
    exact accepts _ _ _ _ pair.made signed

end ZoneSigning
end Loading

namespace ZoneSigning
namespace Sample

/-! A zone whose keys are stored with other flags and times to live than they are published with. -/

def zskSeed : Bytes := List.replicate 32 7

def kskSeed : Bytes := List.replicate 32 42

def apex : DomainName :=
  ⟨[⟨"example".toList, by decide⟩, ⟨"com".toList, by decide⟩], true, by decide⟩

def capitalApex : DomainName :=
  ⟨[⟨"EXAMPLE".toList, by decide⟩, ⟨"com".toList, by decide⟩], true, by decide⟩

def zskText : String := "6kpsY+KcUgq+9VB7Ey7F+ZVHdq6+vnuSQh7qaRRG0iw="

def kskText : String := "GX9rI+FshTLGq8g4+s1ep4m+DHaykgM0A5v6iz02jWE="

def text : KeyRole → KeyHalf → String
  | .zsk, .published => "example.com. 60 IN DNSKEY 257 3 15 " ++ zskText
  | .ksk, .published => "EXAMPLE.com. 3600 IN DNSKEY 256 3 15 " ++ kskText
  | .zsk, .secret =>
    "Private-key-format: v1.3\nAlgorithm: 15 (ED25519)\n" ++
      "PrivateKey: BwcHBwcHBwcHBwcHBwcHBwcHBwcHBwcHBwcHBwcHBwc=\n"
  | .ksk, .secret =>
    "Private-key-format: v1.3\nAlgorithm: 15 (ED25519)\n" ++
      "PrivateKey: KioqKioqKioqKioqKioqKioqKioqKioqKioqKioqKio=\n"

def zsk : StoredKey :=
  ⟨⟨apex, 60, 257, .ed25519, (Base64.decode zskText.toList).getD []⟩, ⟨15, zskSeed⟩⟩

def ksk : StoredKey :=
  ⟨⟨capitalApex, 3600, 256, .ed25519, (Base64.decode kskText.toList).getD []⟩, ⟨15, kskSeed⟩⟩

def zskRecord : Dnskey := { zsk.published with flags := 256, ttl := 3600 }

def kskRecord : Dnskey := { ksk.published with flags := 257 }

def draft : Rrsig :=
  .draft (.ed25519 kskSeed) kskRecord.keyTag capitalApex apex.lower .dnskey 3600
    (Seconds.earlier 1700000000 inceptionOffset) (Seconds.later 1700000000 expirationOffset)

def message : Bytes :=
  draft.header ++ (draft.signerName.wire ++ [zskRecord.rdata, kskRecord.rdata].flatMap
    (Rrsig.recordBytes (draft.recordFront draft.owner.wire)))

def loaded : ZoneSigning :=
  ⟨.loadedAt zskRecord (.ed25519 zskSeed) 1700000000,
    .loadedAt kskRecord (.ed25519 kskSeed) 1700000000, [zskRecord, kskRecord],
    { draft with signature := Ed25519.sign kskSeed message }⟩

private theorem covered : draft.signedData [zskRecord.rdata, kskRecord.rdata] = .ok message := by
  have ascending : [zskRecord.rdata, kskRecord.rdata].Pairwise (· < ·) := by decide +kernel
  rw [Rrsig.signedData, Rrsig.canonicalSet_eq ascending fun _ => .rfl]
  decide +kernel

private theorem accepted : ofStored "example.com." apex.lower 1700000000 zsk ksk = .ok loaded :=
  ofStored_of_pairs (by decide +kernel) (by decide +kernel) rfl rfl
    ⟨rfl, by decide +kernel, rfl, by decide +kernel⟩
    ⟨rfl, by decide +kernel, rfl, by decide +kernel⟩
    (Rrsig.sign_eq_ok.2 ⟨message, _, covered, rfl, rfl⟩)

/-- The answers of the store to a load of the keys. -/
def told : List Event :=
  toldBoth {} "example.com." .zsk (text .zsk .published) (text .zsk .secret) ++
    toldBoth {} "example.com." .ksk (text .ksk .published) (text .ksk .secret)

theorem yields_loaded : (load {} "example.com." 1700000000).run.Yields told (.ok loaded) :=
  yields_load (by decide +kernel) (by decide +kernel) (by decide +kernel) (by decide +kernel)
    (by decide +kernel) accepted

/-- Verification in the ideal: some secret of the public key made the signature. -/
def MadeUnder (algorithm : Algorithm) (publicKey message signature : Bytes) : Prop :=
  ∃ key secret, SigningKey.ofSecret key.algorithm secret = .ok key ∧ key.algorithm = algorithm ∧
    key.publicKey = publicKey ∧ key.sign message = .ok signature

end Sample

open Sample in
theorem load_consistent_sample :
    ∃ h, (load {} "example.com." 1700000000).run.Yields h (.ok loaded) ∧
      loaded.keySet.rrsig.signedData [kskRecord.rdata, zskRecord.rdata, kskRecord.rdata] =
        .ok message ∧
      MadeUnder .ed25519 kskRecord.publicKey message loaded.keySet.rrsig.signature ∧
      kskRecord.verifies message loaded.keySet.rrsig.signature := by
  have pair : ∀ a b x : Bytes, x ∈ [b, a, b] ↔ x = a ∨ x = b := by
    intro a b x
    simp only [List.mem_cons, List.not_mem_nil, or_false]
    tauto
  obtain ⟨_, _, _, -, -, -, -, signs⟩ := load_consistent MadeUnder
    (fun key secret _ _ made signed => ⟨key, secret, made, rfl, rfl, signed⟩) yields_loaded
  obtain ⟨signed, spanned, -, made⟩ := signs _ (pair _ _)
  have ordered : loaded.keySet.rrsig.signedData
      [kskRecord.rdata, zskRecord.rdata, kskRecord.rdata] = .ok message :=
    (Rrsig.signedData_congr _ (by simp [pair])).trans covered
  obtain rfl : signed = message := Except.ok.inj (spanned.symm.trans ordered)
  exact ⟨_, yields_loaded, ordered, made, by decide +kernel⟩

end ZoneSigning
end ZoneCatalog
