import ZoneCatalog.Simulation.World

/-! What can be asked of a world, and what it answers. -/
namespace ZoneCatalog

/-- Something that is asked of a world. Zones, feeds and refreshers go by the numbers under which
they were answered. -/
inductive Step where
  | set (key value : String)
  | delete (key : String)
  | addMember (key member : String)
  | removeMember (key member : String)
  | putField (key name value : String)
  | reads
  | resetReads
  | setOffline (value : Bool)
  | setLatency (millis : Nat)
  | openFeeds
  | advanceClock (seconds : UInt64)
  | setClock (now : Seconds)
  | readClock
  | sleep (millis : Nat)
  | request (r : StoreRequest)
  | readFeed (feed : Nat)
  | closeFeed (feed : Nat)
  /-- Loads a zone past the cache. -/
  | loadZone (name : String) (now : Seconds)
  | loadKeys (zone : String) (now : Seconds)
  | start
  | shutdown
  | findZone (qname : String)
  | listZones
  | getZone (name : String)
  | getLocation (location : String) (zone : Nat)
  /-- Stores records that are given as their text. -/
  | setLocation (location : String) (zone : Nat) (records : String)
  | sign (zone : Nat) (role : KeyRole) (owner : String) (type : RecordType) (ttl : UInt32)
      (rdatas : List Bytes)
  /-- What was reported since it was last asked. -/
  | readNotices
  | metrics
  /-- A refresher that runs for itself, with intervals in milliseconds. -/
  | newRefresher (reloadEvery : Nat) (forceEvery : Option Nat)
  | reloadRefresher (refresher : Nat)
  | spawnRefresher (refresher : Nat)
  | refresherZones (refresher : Nat)
  | refresherFinished (refresher : Nat)
  | stopRefresher (refresher : Nat)
  /-- Whether subscriptions get a feed that is filled by hand. -/
  | setManualFeeds (value : Bool)
  | post (feed : Nat) (e : StoreEvent)
  | endManual (feed : Nat)
  | openManualFeeds
  /-- Makes every request fail, or no longer. -/
  | setFailure (cause : Option StoreError)

structure Metrics where
  zones : Cache.Counters
  locations : Cache.Counters
  /-- How often an index was published, and the number of zones in the last one. -/
  reloads : Nat
  indexed : Nat
deriving DecidableEq, Repr

inductive Answer where
  | done
  | none
  | number (n : Nat)
  | flag (b : Bool)
  | text (t : Option String)
  | texts (ts : List String)
  | storeFailure (cause : StoreError)
  | loadFailure (cause : LoadError)
  | dnssecFailure (cause : DnssecError)
  | nameFailure (cause : NameError)
  | malformed
  | feed (number : Nat)
  | read (found : FeedRead)
  | zone (entry : Entry Zone)
  | location (entry : Entry Location)
  | loadedZone (zone : Zone)
  | loadedKeys (signing : ZoneSigning)
  | signature (rrsig : Rrsig) (key : Dnskey) (rdatas : List Bytes)
  | notices (list : List Notice)
  | metrics (m : Metrics)
  | refresher (number : Nat)
  | cancelled
  | unsigned
  | noZone
  | noFeed
  | noRefresher
  | badState
  /-- It did not come to an end. -/
  | unfinished

end ZoneCatalog
