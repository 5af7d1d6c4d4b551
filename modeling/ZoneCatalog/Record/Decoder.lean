import ZoneCatalog.Data.Decode
import ZoneCatalog.Net.Reader
import ZoneCatalog.Record.Basic

/-! Reading record sets off plain data. A field that is left out has its default, at every depth;
a few fields have none and must be stated. -/
namespace ZoneCatalog

open Datum

def IpAddress.decode (d : Datum) : Decoded IpAddress := do
  match IpAddress.ofText (← decodeText d).toList with
  | some ip => return ip
  | none => throw (.expected "an address")

def IpRecord.decode (d : Datum) : Decoded IpRecord := do
  let fs ← d.fields ["ip", "country", "asn", "weight"] .refused
  return {
    ip := ← fs.require "ip" IpAddress.decode
    country := ← fs.getD "country" (decodeList decodeText) []
    asn := ← fs.getD "asn" decodeUInt32 0
    weight := ← fs.getD "weight" decodeUInt32 0 }

def FilterCount.decode : Datum → Decoded FilterCount :=
  decodeChoice [("multi", .multi), ("single", .single)]

def FilterOrder.decode : Datum → Decoded FilterOrder :=
  decodeChoice [("none", .none), ("weighted", .weighted), ("rr", .rr)]

def GeoFilter.decode : Datum → Decoded GeoFilter :=
  decodeChoice
    [("none", .none), ("location", .location), ("country", .country), ("asn", .asn)]

def IpFilter.decode (d : Datum) : Decoded IpFilter := do
  let fs ← d.fields ["count", "order", "geo_filter"] .refused
  return {
    count := ← fs.getD "count" FilterCount.decode .multi
    order := ← fs.getD "order" FilterOrder.decode .none
    geoFilter := ← fs.getD "geo_filter" GeoFilter.decode .none }

def IpHealthCheck.decode (d : Datum) : Decoded IpHealthCheck := do
  let fs ← d.fields
    ["protocol", "uri", "port", "timeout", "up_count", "down_count", "enable"] .refused
  return {
    protocol := ← fs.getD "protocol" decodeText "http"
    uri := ← fs.getD "uri" decodeText "/"
    port := ← fs.getD "port" decodeUInt16 80
    timeout := ← fs.getD "timeout" decodeUInt32 1000
    upCount := ← fs.getD "up_count" decodeInt32 3
    downCount := ← fs.getD "down_count" decodeInt32 (-3)
    enable := ← fs.getD "enable" decodeBool false }

def IpSet.decode (d : Datum) : Decoded IpSet := do
  let fs ← d.fields ["ttl", "records", "filter", "health_check"] .refused
  return {
    ttl := ← fs.getD "ttl" decodeUInt32 defaultTtl
    records := ← fs.getD "records" (decodeList IpRecord.decode) []
    filter := ← fs.getD "filter" IpFilter.decode {}
    healthCheck := ← fs.getD "health_check" IpHealthCheck.decode {} }

def RrSet.decode {α : Type} (record : Datum → Decoded α) (d : Datum) : Decoded (RrSet α) := do
  let fs ← d.fields ["ttl", "records"] .refused
  return {
    ttl := ← fs.getD "ttl" decodeUInt32 defaultTtl
    records := ← fs.getD "records" (decodeList record) [] }

def Cname.decode (d : Datum) : Decoded Cname := do
  let fs ← d.fields ["ttl", "host"] .refused
  return {
    ttl := ← fs.getD "ttl" decodeUInt32 defaultTtl
    host := ← fs.require "host" decodeText }

def Txt.decode (d : Datum) : Decoded Txt := do
  let fs ← d.fields ["text"] .refused
  return { text := ← fs.require "text" decodeText }

def Ns.decode (d : Datum) : Decoded Ns := do
  let fs ← d.fields ["host"] .refused
  return { host := ← fs.require "host" decodeText }

def Mx.decode (d : Datum) : Decoded Mx := do
  let fs ← d.fields ["host", "preference"] .refused
  return {
    host := ← fs.require "host" decodeText
    preference := ← fs.getD "preference" decodeUInt16 0 }

def Srv.decode (d : Datum) : Decoded Srv := do
  let fs ← d.fields ["target", "port", "priority", "weight"] .refused
  return {
    target := ← fs.require "target" decodeText
    port := ← fs.require "port" decodeUInt16
    priority := ← fs.getD "priority" decodeUInt16 0
    weight := ← fs.getD "weight" decodeUInt16 0 }

def Caa.decode (d : Datum) : Decoded Caa := do
  let fs ← d.fields ["flag", "tag", "value"] .refused
  return {
    flag := ← fs.getD "flag" decodeUInt8 0
    tag := ← fs.require "tag" decodeText
    value := ← fs.require "value" decodeText }

def Ptr.decode (d : Datum) : Decoded Ptr := do
  let fs ← d.fields ["ttl", "domain"] .refused
  return {
    ttl := ← fs.getD "ttl" decodeUInt32 defaultTtl
    domain := ← fs.require "domain" decodeText }

def Tlsa.decode (d : Datum) : Decoded Tlsa := do
  let fs ← d.fields ["usage", "selector", "matching_type", "certificate"] .refused
  return {
    usage := ← fs.require "usage" decodeUInt8
    selector := ← fs.require "selector" decodeUInt8
    matchingType := ← fs.require "matching_type" decodeUInt8
    certificate := ← fs.require "certificate" decodeText }

def Aname.decode (d : Datum) : Decoded Aname := do
  let fs ← d.fields ["location"] .refused
  return { location := ← fs.require "location" decodeText }

def RecordSets.decode (d : Datum) : Decoded RecordSets := do
  let fs ← d.fields
    ["a", "aaaa", "cname", "txt", "ns", "mx", "srv", "caa", "ptr", "tlsa", "aname"] .refused
  return {
    a := ← fs.getD "a" IpSet.decode {}
    aaaa := ← fs.getD "aaaa" IpSet.decode {}
    cname := ← fs.getD "cname" (decodeOption Cname.decode) none
    txt := ← fs.getD "txt" (RrSet.decode Txt.decode) {}
    ns := ← fs.getD "ns" (RrSet.decode Ns.decode) {}
    mx := ← fs.getD "mx" (RrSet.decode Mx.decode) {}
    srv := ← fs.getD "srv" (RrSet.decode Srv.decode) {}
    caa := ← fs.getD "caa" (RrSet.decode Caa.decode) {}
    ptr := ← fs.getD "ptr" (decodeOption Ptr.decode) none
    tlsa := ← fs.getD "tlsa" (RrSet.decode Tlsa.decode) {}
    aname := ← fs.getD "aname" (decodeOption Aname.decode) none }

end ZoneCatalog
