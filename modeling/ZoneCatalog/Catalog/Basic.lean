import ZoneCatalog.Cache.Lookup
import ZoneCatalog.Refresher.Basic
import ZoneCatalog.Settings.Validity
import ZoneCatalog.Zone.Basic
import ZoneCatalog.Zone.Location

/-! The catalog: the index of zones with the refresher that keeps it up to date, and the caches of
zones and locations. -/
namespace ZoneCatalog

inductive CatalogError where
  | settings (cause : SettingsError)
  /-- Zones are to be kept for longer than a cache can keep anything. -/
  | idleTooLong
deriving DecidableEq

structure Catalog where
  keys : StoreKeys
  /-- The interval of reloads, in milliseconds. -/
  reloadEvery : Nat
  index : ZoneIndex := .empty
  zones : Cache LoadError Zone
  locations : Cache LoadError Location
  refresher : Option Nat := none

namespace Catalog

/-- The longest time for which a cache can keep an entry nobody asks for, in seconds: a thousand
years. -/
def longestIdle : Nat := 1000 * 365 * 24 * 3600

def ofSettings (s : Settings) : Except CatalogError Catalog := do
  (s.validate).mapError .settings
  if longestIdle < s.zoneIdle.toNat then throw .idleTooLong
  return {
    keys := s.store.keys
    reloadEvery := s.reloadSeconds.toNat * 1000
    zones := { lifetime := s.lifetime }
    locations := { lifetime := s.lifetime } }

def findZone (c : Catalog) (qname : String) : Option String := c.index.find qname

def locationKey (label zone : String) : String := label ++ "." ++ zone

def fetchZone (c : Catalog) (name : String) : Fallible LoadError Zone := do
  let now : Seconds ← Program.now
  Zone.load c.keys name now

def fetchLocation (c : Catalog) (label zone : String) : Fallible LoadError Location :=
  Location.load c.keys label zone

def plan (c : Catalog) : RefresherPlan × List Notice :=
  RefresherPlan.make c.keys c.reloadEvery

/-- The catalog with a refresher, and the number of the one it takes the place of. -/
def install (c : Catalog) (refresher : Nat) : Option Nat × Catalog :=
  (c.refresher, { c with refresher := some refresher })

/-- The catalog without its refresher, and the number of it. -/
def uninstall (c : Catalog) : Option Nat × Catalog :=
  (c.refresher, { c with refresher := none })

/-- The report of an answer that is not a fetched value. -/
def noticesOf {V : Type} (cache : CacheName) (key : String) :
    Cache.Answer LoadError V → List Notice
  | .found _ => []
  | .stale _ cause => [.servedStale cache key cause]
  | .failed cause => [.fetchFailed cache key cause]

end Catalog
end ZoneCatalog
