/-! The layout of zone data in the store. Every key stands between two texts that are the same for
all keys of a deployment, so that several deployments can share a store. -/
namespace ZoneCatalog

/-- The name under which a zone's own records are stored among its locations. -/
def apexLabel : String := "@"

inductive KeyRole where
  /-- It signs the records of the zone. -/
  | zsk
  /-- It signs the keys of the zone. -/
  | ksk
deriving DecidableEq, Repr

def KeyRole.flags : KeyRole → UInt16
  | .zsk => 256
  | .ksk => 257

def KeyRole.tag : KeyRole → String
  | .zsk => "zsk"
  | .ksk => "ksk"

inductive KeyHalf where
  | published
  | secret
deriving DecidableEq, Repr

def KeyHalf.tag : KeyHalf → String
  | .published => "pub"
  | .secret => "priv"

/-- A layout: what comes before and after the part of a key that differs. -/
structure StoreKeys where
  front : String := "kvdns:"
  back : String := ""
deriving DecidableEq, Repr

namespace StoreKeys

def wrap (keys : StoreKeys) (inner : String) : String := keys.front ++ inner ++ keys.back

def zoneSet (keys : StoreKeys) : String := keys.wrap "zones"

def zone (keys : StoreKeys) (zone : String) : String := keys.wrap zone

def zoneConfig (keys : StoreKeys) (zone : String) : String := keys.wrap (zone ++ ":config")

def zoneKey (keys : StoreKeys) (zone : String) (role : KeyRole) (half : KeyHalf) : String :=
  keys.wrap (zone ++ ":" ++ role.tag ++ ":" ++ half.tag)

end StoreKeys
end ZoneCatalog
