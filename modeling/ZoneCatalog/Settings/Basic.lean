import ZoneCatalog.Clock.Basic
import ZoneCatalog.Store.Keys
import ZoneCatalog.Text.Case
import ZoneCatalog.Text.Numeral

/-! The settings of a catalog: sizes and lifetimes of its caches, the interval of its reloads, the
connection to the store and the range of health statuses. Each may be left open and has a default
then. -/
namespace ZoneCatalog

inductive LogLevel where
  | error
  | warn
  | info
  | debug
  | trace
deriving DecidableEq, Repr

namespace LogLevel

def name : LogLevel → String
  | .error => "ERROR"
  | .warn => "WARN"
  | .info => "INFO"
  | .debug => "DEBUG"
  | .trace => "TRACE"

def all : List LogLevel := [.error, .warn, .info, .debug, .trace]

/-- A level by its name in letters of any case, or by its place in the order, from one on. -/
def ofText (text : String) : Option LogLevel :=
  match Text.numeral? UInt64.size text.toList with
  | some 0 => none
  | some (n + 1) => all[n]?
  | none => all.find? fun level => Text.isWord level.name text.toList

end LogLevel

structure CacheSettings where
  capacity : Option UInt64 := none
  /-- In seconds. -/
  timeout : Option UInt64 := none
deriving DecidableEq

/-- The connection to the store. Timeouts are in milliseconds. -/
structure StoreSettings where
  address : Option String := none
  database : Option Int64 := none
  password : Option String := none
  front : Option String := none
  back : Option String := none
  connectTimeout : Option UInt64 := none
  readTimeout : Option UInt64 := none
deriving DecidableEq

namespace StoreSettings

def addressText (s : StoreSettings) : String := s.address.getD "127.0.0.1:6379"

def databaseNumber (s : StoreSettings) : Int64 := s.database.getD 0

def keys (s : StoreSettings) : StoreKeys where
  front := s.front.getD "kvdns:"
  back := s.back.getD ""

def connectMillis (s : StoreSettings) : UInt64 := s.connectTimeout.getD 500

def readMillis (s : StoreSettings) : UInt64 := s.readTimeout.getD 500

end StoreSettings

structure HealthBounds where
  fullyDown : Option Int32 := none
  fullyUp : Option Int32 := none
deriving DecidableEq

namespace HealthBounds

/-- The status at and below which an address is down. -/
def down (b : HealthBounds) : Int32 := b.fullyDown.getD (-10)

def up (b : HealthBounds) : Int32 := b.fullyUp.getD 10

end HealthBounds

structure Settings where
  logLevel : Option String := none
  zoneCache : CacheSettings := {}
  recordCache : CacheSettings := {}
  /-- Seconds between two looks at whether the zones need reloading. -/
  zoneReload : Option UInt64 := none
  store : StoreSettings := {}
  healthCheck : HealthBounds := {}
deriving DecidableEq

namespace Settings

def level (s : Settings) : LogLevel := (s.logLevel.bind LogLevel.ofText).getD .info

def zoneCapacity (s : Settings) : UInt64 := s.zoneCache.capacity.getD 10000

/-- The seconds for which a zone that nobody asks for is kept. -/
def zoneIdle (s : Settings) : UInt64 := s.zoneCache.timeout.getD 60

def recordCapacity (s : Settings) : UInt64 := s.recordCache.capacity.getD 1000000

/-- The seconds for which a zone or a location is served before it is fetched again. -/
def lifetime (s : Settings) : UInt64 := s.recordCache.timeout.getD 60

def reloadSeconds (s : Settings) : UInt64 := s.zoneReload.getD 60

end Settings
end ZoneCatalog
