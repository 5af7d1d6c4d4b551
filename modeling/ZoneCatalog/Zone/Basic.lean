import ZoneCatalog.Zone.Config
import ZoneCatalog.Zone.Signing

/-! Zones as they are served, and how they are loaded from the store. -/
namespace ZoneCatalog

structure Zone where
  /-- The text under which the zone is listed. -/
  name : String
  /-- The labels of its locations in ascending order. -/
  locations : List String
  config : ZoneConfig
  soa : Soa
  signing : Option ZoneSigning
deriving DecidableEq

namespace Zone

def isSigned (z : Zone) : Bool := z.signing.isSome

/-- The configuration that is stored for a zone. A zone without one has the default, if it has
locations; otherwise there is no such zone. -/
def configOf (key name : String) (locations : List String) :
    Option String → Except LoadError ZoneConfig
  | some text => (ZoneConfig.ofJson text).mapError fun _ => .undecodable key
  | none => if locations.isEmpty then .error (.missing name) else .ok {}

/-- What a zone is to sign with. It is served unsigned if its keys cannot be had. -/
def loadSigning (keys : StoreKeys) (name : String) (config : ZoneConfig) (now : Seconds) :
    Program (Option ZoneSigning) :=
  if config.dnssec then do
    match ← (ZoneSigning.load keys name now).run with
    | .ok signing => return some signing
    | .error cause =>
      Program.notify (.servedUnsigned name cause)
      return none
  else return none

/-- Loads the zone that is listed under a text, at a time. -/
def load (keys : StoreKeys) (name : String) (now : Seconds) : Fallible LoadError Zone := do
  let _ ← Fallible.ofExcept ((DomainName.parse name.toList).mapError (LoadError.name name))
  let names : List String ← Fallible.request .store (.fieldNames (keys.zone name))
  let locations := names.mergeSort (fun a b => decide (a ≤ b))
  let key := keys.zoneConfig name
  let stored : Option String ← Fallible.request .store (.get key)
  let config ← Fallible.ofExcept (configOf key name locations stored)
  let signing ← loadSigning keys name config now
  return ⟨name, locations, config, config.soa.resolve name now, signing⟩

end Zone
end ZoneCatalog
