import ZoneCatalog.Dnssec.ZoneKey
import ZoneCatalog.Store.Keys
import ZoneCatalog.Store.Program

/-! The keys of a zone as they are loaded from the store: both halves of the key that signs the
zone and of the key that signs the keys. -/
namespace ZoneCatalog

structure StoredKey where
  published : Dnskey
  secret : PrivateKey

def loadHalf (key : String) : Fallible DnssecError String := do
  let some text ← Fallible.request .store (.get key) | throw (.missingKey key)
  return text

/-- Loads the key that plays a role in a zone. Both halves are there before either is read. -/
def StoredKey.load (keys : StoreKeys) (zone : String) (role : KeyRole) :
    Fallible DnssecError StoredKey := do
  let published := keys.zoneKey zone role .published
  let secret := keys.zoneKey zone role .secret
  let publishedText ← loadHalf published
  let secretText ← loadHalf secret
  Fallible.ofExcept do
    return ⟨← Dnskey.parse published publishedText, ← PrivateKey.parse secret secretText⟩

/-- Refuses a key that is published at another name than the apex of the zone. -/
def StoredKey.checkOwner (key : StoredKey) (zone : String) (apex : DomainName) :
    Except DnssecError Unit :=
  if key.published.owner.same apex then .ok ()
  else .error (.malformed zone (.foreignOwner key.published.owner))

namespace ZoneSigning

/-- Makes the keys of a zone out of what is stored. Both have to belong to the zone. They are
published with the flags of their roles and with the time to live of the key signing key, whatever
the store says, and the set of both is signed. -/
def ofStored (zone : String) (apex : DomainName) (now : Seconds) (zsk ksk : StoredKey) :
    Except DnssecError ZoneSigning := do
  zsk.checkOwner zone apex
  ksk.checkOwner zone apex
  let zskRecord := { zsk.published with
    flags := KeyRole.zsk.flags
    ttl := ksk.published.ttl }
  let kskRecord := { ksk.published with flags := KeyRole.ksk.flags }
  let zskSigner ← SigningKey.ofParts zskRecord zsk.secret
  let kskSigner ← SigningKey.ofParts kskRecord ksk.secret
  let zsk := ZoneKey.loadedAt zskRecord zskSigner now
  let ksk := ZoneKey.loadedAt kskRecord kskSigner now
  let rrsig ← ksk.signSet apex .dnskey kskRecord.ttl [zskRecord.rdata, kskRecord.rdata]
  return ⟨zsk, ksk, ⟨[zskRecord, kskRecord], rrsig⟩⟩

/-- Loads the keys of a zone, to sign from the given time on. -/
def load (keys : StoreKeys) (zone : String) (now : Seconds) :
    Fallible DnssecError ZoneSigning := do
  let apex ← Fallible.ofExcept ((DomainName.parse zone.toList).mapError fun e => .proto (.name e))
  let zsk ← StoredKey.load keys zone .zsk
  let ksk ← StoredKey.load keys zone .ksk
  Fallible.ofExcept (ofStored zone apex.lower now zsk ksk)

end ZoneSigning
end ZoneCatalog
