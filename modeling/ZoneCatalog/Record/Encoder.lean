import ZoneCatalog.Data.Datum
import ZoneCatalog.Net.Printer
import ZoneCatalog.Record.Basic

/-! Writing record sets as plain data. Every field is stated, but for the sets of a single record
that is absent. -/
namespace ZoneCatalog

open Datum

def IpRecord.encode (r : IpRecord) : Datum :=
  .object [
    ("ip", .str r.ip.display),
    ("country", .list (r.country.map Datum.str)),
    ("asn", .nat r.asn.toNat),
    ("weight", .nat r.weight.toNat)]

def FilterCount.encode : FilterCount → Datum
  | .multi => .str "multi"
  | .single => .str "single"

def FilterOrder.encode : FilterOrder → Datum
  | .none => .str "none"
  | .weighted => .str "weighted"
  | .rr => .str "rr"

def GeoFilter.encode : GeoFilter → Datum
  | .none => .str "none"
  | .location => .str "location"
  | .country => .str "country"
  | .asn => .str "asn"

def IpFilter.encode (f : IpFilter) : Datum :=
  .object [
    ("count", f.count.encode),
    ("order", f.order.encode),
    ("geo_filter", f.geoFilter.encode)]

def IpHealthCheck.encode (h : IpHealthCheck) : Datum :=
  .object [
    ("protocol", .str h.protocol),
    ("uri", .str h.uri),
    ("port", .nat h.port.toNat),
    ("timeout", .nat h.timeout.toNat),
    ("up_count", .int h.upCount.toInt),
    ("down_count", .int h.downCount.toInt),
    ("enable", .bool h.enable)]

def IpSet.encode (s : IpSet) : Datum :=
  .object [
    ("ttl", .nat s.ttl.toNat),
    ("records", .list (s.records.map IpRecord.encode)),
    ("filter", s.filter.encode),
    ("health_check", s.healthCheck.encode)]

def RrSet.encode {α : Type} (record : α → Datum) (s : RrSet α) : Datum :=
  .object [("ttl", .nat s.ttl.toNat), ("records", .list (s.records.map record))]

def Cname.encode (r : Cname) : Datum :=
  .object [("ttl", .nat r.ttl.toNat), ("host", .str r.host)]

def Txt.encode (r : Txt) : Datum := .object [("text", .str r.text)]

def Ns.encode (r : Ns) : Datum := .object [("host", .str r.host)]

def Mx.encode (r : Mx) : Datum :=
  .object [("host", .str r.host), ("preference", .nat r.preference.toNat)]

def Srv.encode (r : Srv) : Datum :=
  .object [
    ("target", .str r.target),
    ("port", .nat r.port.toNat),
    ("priority", .nat r.priority.toNat),
    ("weight", .nat r.weight.toNat)]

def Caa.encode (r : Caa) : Datum :=
  .object [("flag", .nat r.flag.toNat), ("tag", .str r.tag), ("value", .str r.value)]

def Ptr.encode (r : Ptr) : Datum :=
  .object [("ttl", .nat r.ttl.toNat), ("domain", .str r.domain)]

def Tlsa.encode (r : Tlsa) : Datum :=
  .object [
    ("usage", .nat r.usage.toNat),
    ("selector", .nat r.selector.toNat),
    ("matching_type", .nat r.matchingType.toNat),
    ("certificate", .str r.certificate)]

def Aname.encode (r : Aname) : Datum := .object [("location", .str r.location)]

/-- A member that is there only for a value that is. -/
def presentMember {α : Type} (name : String) (encode : α → Datum) :
    Option α → List (String × Datum)
  | some x => [(name, encode x)]
  | none => []

def RecordSets.encode (s : RecordSets) : Datum :=
  .object (
    [("a", s.a.encode), ("aaaa", s.aaaa.encode)] ++
    presentMember "cname" Cname.encode s.cname ++
    [("txt", s.txt.encode Txt.encode),
      ("ns", s.ns.encode Ns.encode),
      ("mx", s.mx.encode Mx.encode),
      ("srv", s.srv.encode Srv.encode),
      ("caa", s.caa.encode Caa.encode)] ++
    presentMember "ptr" Ptr.encode s.ptr ++
    [("tlsa", s.tlsa.encode Tlsa.encode)] ++
    presentMember "aname" Aname.encode s.aname)

end ZoneCatalog
