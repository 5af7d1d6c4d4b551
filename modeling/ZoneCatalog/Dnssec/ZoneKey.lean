import ZoneCatalog.Dnssec.Rrsig

/-! The keys of a zone: each with the window of time in which its signatures are valid. -/
namespace ZoneCatalog

/-- Signatures are valid from so many seconds before the zone was loaded, which is three hours. -/
def inceptionOffset : UInt64 := 10800

/-- Signatures are valid until so many seconds after the zone was loaded, which is eight days. -/
def expirationOffset : UInt64 := 691200

structure ZoneKey where
  dnskey : Dnskey
  signer : SigningKey
  inception : Seconds
  expiration : Seconds
deriving DecidableEq

namespace ZoneKey

def loadedAt (dnskey : Dnskey) (signer : SigningKey) (now : Seconds) : ZoneKey where
  dnskey
  signer
  inception := now.earlier inceptionOffset
  expiration := now.later expirationOffset

def signSet (k : ZoneKey) (owner : DomainName) (type : RecordType) (ttl : UInt32)
    (rdatas : List Bytes) : Except DnssecError Rrsig :=
  Rrsig.sign k.signer k.dnskey.keyTag k.dnskey.owner owner type ttl rdatas k.inception k.expiration

end ZoneKey

/-- The public keys of a zone with the signature over them. -/
structure SignedKeySet where
  keys : List Dnskey
  rrsig : Rrsig
deriving DecidableEq

/-- What a zone needs to answer with signatures. -/
structure ZoneSigning where
  zsk : ZoneKey
  ksk : ZoneKey
  keySet : SignedKeySet
deriving DecidableEq

end ZoneCatalog
