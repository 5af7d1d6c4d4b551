import ZoneCatalog.Clock.Basic
import ZoneCatalog.Json.Decode
import ZoneCatalog.Json.Writer

/-! The stored configuration of a zone, and its start of authority with the fields that the
configuration leaves open filled from the zone's name and the time it was loaded. -/
namespace ZoneCatalog

open Datum

/-- Fields of the start of authority as far as they are configured. -/
structure SoaConfig where
  ttl : Option UInt32 := none
  ns : Option String := none
  mbox : Option String := none
  refresh : Option UInt32 := none
  retry : Option UInt32 := none
  expire : Option UInt32 := none
  /-- How long the absence of a name is remembered. -/
  minimum : Option UInt32 := none
  serial : Option UInt32 := none
deriving DecidableEq

structure ZoneConfig where
  soa : SoaConfig := {}
  dnssec : Bool := false
  /-- Whether an alias at the apex is answered with the addresses it leads to. -/
  cnameFlattening : Bool := false
  /-- An identifier of the zone's owner without meaning here. -/
  domainId : String := ""
deriving DecidableEq

/-- A start of authority with every field filled. -/
structure Soa where
  ttl : UInt32
  ns : String
  mbox : String
  refresh : UInt32
  retry : UInt32
  expire : UInt32
  minimum : UInt32
  serial : UInt32
deriving DecidableEq

/-- Fills the open fields for a zone loaded at a time. The default serial number is that time, as
serial numbers count it. -/
def SoaConfig.resolve (c : SoaConfig) (zone : String) (now : Seconds) : Soa where
  ttl := c.ttl.getD 300
  ns := c.ns.getD ("ns1." ++ zone)
  mbox := c.mbox.getD ("hostmaster." ++ zone)
  refresh := c.refresh.getD 44
  retry := c.retry.getD 55
  expire := c.expire.getD 66
  minimum := c.minimum.getD 100
  serial := c.serial.getD now.serial

def SoaConfig.decode (d : Datum) : Decoded SoaConfig := do
  let fs ← d.fields
    ["ttl", "ns", "mbox", "refresh", "retry", "expire", "minimum", "serial"] .refused
  let number := fun name => fs.getD name (decodeOption decodeUInt32) none
  let text := fun name => fs.getD name (decodeOption decodeText) none
  return {
    ttl := ← number "ttl"
    ns := ← text "ns"
    mbox := ← text "mbox"
    refresh := ← number "refresh"
    retry := ← number "retry"
    expire := ← number "expire"
    minimum := ← number "minimum"
    serial := ← number "serial" }

def ZoneConfig.decode (d : Datum) : Decoded ZoneConfig := do
  let fs ← d.fields ["soa", "dnssec", "cname_flattening", "domain_id"] .refused
  return {
    soa := ← fs.getD "soa" SoaConfig.decode {}
    dnssec := ← fs.getD "dnssec" decodeBool false
    cnameFlattening := ← fs.getD "cname_flattening" decodeBool false
    domainId := ← fs.getD "domain_id" decodeText "" }

def ZoneConfig.ofJson (text : String) : Except JsonError ZoneConfig :=
  Json.decode ZoneConfig.decode text

def SoaConfig.encode (c : SoaConfig) : Datum :=
  let number := fun (n : Option UInt32) => (n.map fun n => Datum.nat n.toNat).getD .null
  let text := fun (s : Option String) => (s.map Datum.str).getD .null
  .object [
    ("ttl", number c.ttl),
    ("ns", text c.ns),
    ("mbox", text c.mbox),
    ("refresh", number c.refresh),
    ("retry", number c.retry),
    ("expire", number c.expire),
    ("minimum", number c.minimum),
    ("serial", number c.serial)]

def ZoneConfig.encode (c : ZoneConfig) : Datum :=
  .object [
    ("soa", c.soa.encode),
    ("dnssec", .bool c.dnssec),
    ("cname_flattening", .bool c.cnameFlattening),
    ("domain_id", .str c.domainId)]

/-- The text of a configuration, its open fields null. -/
def ZoneConfig.toJson (c : ZoneConfig) : String := Json.writeString c.encode

end ZoneCatalog
