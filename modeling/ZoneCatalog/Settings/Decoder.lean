import ZoneCatalog.Json.Decode
import ZoneCatalog.Settings.Basic

/-! Reading settings off plain data. The two formats that settings come in differ in whether a list
may have more items than the record it stands for has fields. -/
namespace ZoneCatalog

open Datum

def CacheSettings.decode (surplus : Surplus) (d : Datum) : Decoded CacheSettings := do
  let fs ← d.fields ["capacity", "timeout"] surplus
  return {
    capacity := ← fs.get? "capacity" decodeUInt64
    timeout := ← fs.get? "timeout" decodeUInt64 }

def StoreSettings.decode (surplus : Surplus) (d : Datum) : Decoded StoreSettings := do
  let fs ← d.fields
    ["address", "database", "password", "prefix", "suffix", "connect_timeout", "read_timeout"]
    surplus
  return {
    address := ← fs.get? "address" decodeText
    database := ← fs.get? "database" decodeInt64
    password := ← fs.get? "password" decodeText
    front := ← fs.get? "prefix" decodeText
    back := ← fs.get? "suffix" decodeText
    connectTimeout := ← fs.get? "connect_timeout" decodeUInt64
    readTimeout := ← fs.get? "read_timeout" decodeUInt64 }

def HealthBounds.decode (surplus : Surplus) (d : Datum) : Decoded HealthBounds := do
  let fs ← d.fields ["fully_down", "fully_up"] surplus
  return {
    fullyDown := ← fs.get? "fully_down" decodeInt32
    fullyUp := ← fs.get? "fully_up" decodeInt32 }

def Settings.decode (surplus : Surplus) (d : Datum) : Decoded Settings := do
  let fs ← d.fields
    ["log_level", "zone_cache", "record_cache", "zone_reload", "store", "health_check"] surplus
  return {
    logLevel := ← fs.get? "log_level" decodeText
    zoneCache := ← fs.getD "zone_cache" (CacheSettings.decode surplus) {}
    recordCache := ← fs.getD "record_cache" (CacheSettings.decode surplus) {}
    zoneReload := ← fs.get? "zone_reload" decodeUInt64
    store := ← fs.getD "store" (StoreSettings.decode surplus) {}
    healthCheck := ← fs.getD "health_check" (HealthBounds.decode surplus) {} }

/-- The settings of a JSON text. They need not be usable. -/
def Settings.ofJson (text : String) : Except JsonError Settings :=
  Json.decode (Settings.decode .refused) text

end ZoneCatalog
