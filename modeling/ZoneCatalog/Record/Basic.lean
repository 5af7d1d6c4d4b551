import ZoneCatalog.Clock.Basic
import ZoneCatalog.Net.Address

/-! The record sets of one location: for every record type the records and their time to live, and
for addresses also the policy by which they are answered. Every part has a neutral default. -/
namespace ZoneCatalog

def defaultTtl : UInt32 := 300

/-- Records of one type that share a time to live. -/
structure RrSet (α : Type) where
  ttl : UInt32 := defaultTtl
  records : List α := []
deriving DecidableEq

structure IpRecord where
  ip : IpAddress
  country : List String := []
  asn : UInt32 := 0
  weight : UInt32 := 0
deriving DecidableEq

/-- How many addresses are answered. -/
inductive FilterCount where
  | multi
  | single
deriving DecidableEq

/-- In which order addresses are answered. -/
inductive FilterOrder where
  | none
  | weighted
  /-- Rotated from query to query. -/
  | rr
deriving DecidableEq

/-- Which addresses a client is answered by its place. -/
inductive GeoFilter where
  | none
  | location
  | country
  | asn
deriving DecidableEq

structure IpFilter where
  count : FilterCount := .multi
  order : FilterOrder := .none
  geoFilter : GeoFilter := .none
deriving DecidableEq

structure IpHealthCheck where
  protocol : String := "http"
  uri : String := "/"
  port : UInt16 := 80
  /-- In milliseconds. -/
  timeout : UInt32 := 1000
  upCount : Int32 := 3
  downCount : Int32 := -3
  /-- Whether unhealthy addresses are withheld. -/
  enable : Bool := false
deriving DecidableEq

structure IpSet where
  ttl : UInt32 := defaultTtl
  records : List IpRecord := []
  filter : IpFilter := {}
  healthCheck : IpHealthCheck := {}
deriving DecidableEq

structure Cname where
  ttl : UInt32 := defaultTtl
  host : String
deriving DecidableEq

structure Txt where
  text : String
deriving DecidableEq

structure Ns where
  host : String
deriving DecidableEq

structure Mx where
  host : String
  preference : UInt16 := 0
deriving DecidableEq

structure Srv where
  target : String
  port : UInt16
  priority : UInt16 := 0
  weight : UInt16 := 0
deriving DecidableEq

structure Caa where
  flag : UInt8 := 0
  tag : String
  value : String
deriving DecidableEq

structure Ptr where
  ttl : UInt32 := defaultTtl
  domain : String
deriving DecidableEq

structure Tlsa where
  usage : UInt8
  selector : UInt8
  matchingType : UInt8
  /-- The association data in hexadecimal. -/
  certificate : String
deriving DecidableEq

/-- An alias that is answered with the addresses of another location. -/
structure Aname where
  location : String
deriving DecidableEq

structure RecordSets where
  a : IpSet := {}
  aaaa : IpSet := {}
  cname : Option Cname := none
  txt : RrSet Txt := {}
  ns : RrSet Ns := {}
  mx : RrSet Mx := {}
  srv : RrSet Srv := {}
  caa : RrSet Caa := {}
  ptr : Option Ptr := none
  tlsa : RrSet Tlsa := {}
  aname : Option Aname := none
deriving DecidableEq

/-- Whether there is no record of any type; policies do not count. -/
def RecordSets.isEmpty (s : RecordSets) : Bool :=
  s.a.records.isEmpty && s.aaaa.records.isEmpty && s.cname.isNone && s.txt.records.isEmpty &&
    s.ns.records.isEmpty && s.mx.records.isEmpty && s.srv.records.isEmpty &&
    s.caa.records.isEmpty && s.ptr.isNone && s.tlsa.records.isEmpty && s.aname.isNone

end ZoneCatalog
