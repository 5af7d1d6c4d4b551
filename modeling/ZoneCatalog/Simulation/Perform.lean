import ZoneCatalog.Simulation.Call

/-! How each call begins, goes on after a wait, and is given up. -/
namespace ZoneCatalog

namespace World

def inMemory (w : World) (change : MemoryStore → MemoryStore) : Standing × World :=
  (.answered .done, { w with store := { w.store with memory := change w.store.memory } })

def answered (w : World) (answer : Answer) : Standing × World := (.answered answer, w)

def withZone (w : World) (number : Nat) (f : Zone → Standing × World) : Standing × World :=
  match w.shownZones[number]? with
  | some entry => f entry.value
  | none => w.answered .noZone

def withFeed (w : World) (number : Nat) (f : FeedId → Standing × World) : Standing × World :=
  match w.feeds[number]? with
  | some (some feed) => f feed
  | _ => w.answered .noFeed

def withSolo (w : World) (number : Nat) (f : Solo → Standing × World) : Standing × World :=
  match w.solos[number]? with
  | some solo => f solo
  | none => w.answered .noRefresher

def setSolo (w : World) (number : Nat) (state : SoloState) : World :=
  { w with solos := w.solos.modify number fun solo => { solo with state } }

def signWith (z : Zone) (role : KeyRole) (owner : String) (type : RecordType) (ttl : UInt32)
    (rdatas : List Bytes) : Answer :=
  match z.signing with
  | none => .unsigned
  | some signing =>
    let key := match role with
      | .zsk => signing.zsk
      | .ksk => signing.ksk
    match DomainName.parse owner.toList with
    | .error cause => .nameFailure cause
    | .ok owner =>
      match key.signSet owner type ttl rdatas with
      | .ok rrsig => .signature rrsig key.dnskey rdatas
      | .error cause => .dnssecFailure cause

def reloadSolo (w : World) (number : Nat) (plan : RefresherPlan) : Standing × World :=
  w.work (.ask (.members plan.zoneSet) fun
    | .error cause => .done fun w => (.storeFailure cause, w)
    | .ok zones => .done fun w =>
      let (count, w) := w.publishZones (.solo number) zones
      (.number count, w))

def figures (w : World) : Metrics :=
  ⟨w.catalog.zones.counters, w.catalog.locations.counters, w.reloads, w.indexed⟩

def zoneStanding (name : String) : LookupStanding Zone × World → Standing × World
  | (.answered answer, w) => (.answered answer, w)
  | (.waiting lookup fetch, w) => (.waiting (.zone lookup name fetch), w)

def locationStanding (label zone : String) : LookupStanding Location × World → Standing × World
  | (.answered answer, w) => (.answered answer, w)
  | (.waiting lookup fetch, w) => (.waiting (.location lookup label zone fetch), w)

def begin (w : World) : Step → Standing × World
  | .set key value => w.inMemory (·.set key value)
  | .delete key => w.inMemory (·.delete key)
  | .addMember key member => w.inMemory (·.addMember key member)
  | .removeMember key member => w.inMemory (·.removeMember key member)
  | .putField key name value => w.inMemory (·.putField key name value)
  | .reads => w.answered (.number w.store.memory.reads)
  | .resetReads => w.inMemory fun m => { m with reads := 0 }
  | .setOffline value => w.inMemory fun m => { m with offline := value }
  | .setLatency millis => w.inMemory fun m => { m with latency := millis }
  | .openFeeds => w.answered (.number w.store.memory.openFeeds)
  | .advanceClock seconds => { w with clock := w.clock + seconds }.answered .done
  | .setClock now => { w with clock := now }.answered .done
  | .readClock => w.answered (.number w.clock.toNat)
  | .sleep millis =>
    if millis = 0 then w.answered .done else (.waiting (.sleeping (w.millis + millis)), w)
  | .request r => w.work (requesting r)
  | .readFeed feed => w.withFeed feed fun id =>
    let (found, store) := w.store.readFeed id
    { w with store }.answered (.read found)
  | .closeFeed feed => w.withFeed feed fun id =>
    { w with
      store := w.store.closeFeed id
      feeds := w.feeds.set feed none }.answered .done
  | .loadZone name now =>
    w.work (attempting (Zone.load w.catalog.keys name now) .loadFailure .loadedZone)
  | .loadKeys zone now =>
    w.work (attempting (ZoneSigning.load w.catalog.keys zone now) .dnssecFailure .loadedKeys)
  | .start => w.beginStart
  | .shutdown => w.beginShutdown
  | .findZone qname => w.answered (.text (w.catalog.findZone qname))
  | .listZones => w.answered (.texts w.catalog.index.toList)
  | .getZone name =>
    zoneStanding name (w.beginLookup .zones .zone (w.catalog.fetchZone name) name)
  | .getLocation location zone => w.withZone zone fun zone =>
    let label := relativeLabel location zone.name
    locationStanding label zone.name (w.beginLookup .locations .location
      (w.catalog.fetchLocation label zone.name) (Catalog.locationKey label zone.name))
  | .setLocation location zone records => w.withZone zone fun zone =>
    match RecordSets.ofJson records with
    | .error _ => w.answered .malformed
    | .ok records =>
      w.work (attempting (Location.save w.catalog.keys location zone.name records)
        .loadFailure fun _ => .done)
  | .sign zone role owner type ttl rdatas => w.withZone zone fun zone =>
    w.answered (signWith zone role owner type ttl rdatas)
  | .readNotices => { w with notices := [] }.answered (.notices w.notices.reverse)
  | .metrics => w.answered (.metrics w.figures)
  | .newRefresher reloadEvery forceEvery =>
    let (plan, notices) := RefresherPlan.make w.catalog.keys reloadEvery
    let w := w.report notices
    let (plan, notices) := match forceEvery with
      | some millis => plan.withForced millis
      | none => (plan, [])
    let w := w.report notices
    { w with solos := w.solos ++ [({ plan := plan } : Solo)] }.answered (.refresher w.solos.length)
  | .reloadRefresher number => w.withSolo number fun solo =>
    match solo.state with
    | .ready => w.reloadSolo number solo.plan
    | _ => w.answered .badState
  | .spawnRefresher number => w.withSolo number fun solo =>
    match solo.state with
    | .ready =>
      let (worker, w) := w.spawn solo.plan (.solo number)
      (w.setSolo number (.running worker)).answered .done
    | _ => w.answered .badState
  | .refresherZones number => w.withSolo number fun solo => w.answered (.texts solo.index.toList)
  | .refresherFinished number => w.withSolo number fun solo =>
    match solo.state with
    | .running worker => w.answered (.flag (w.isFinished worker))
    | _ => w.answered .badState
  | .stopRefresher number => w.withSolo number fun solo =>
    match solo.state with
    | .running worker => ((w.setSolo number .stopped).stop worker).awaitEnd worker .done
    | _ => w.answered .badState
  | .setManualFeeds value =>
    { w with store := { w.store with manualFeeds := value } }.answered .done
  | .post feed e =>
    let (posted, store) := w.store.post feed e
    { w with store }.answered (.flag posted)
  | .endManual feed =>
    let (wasOpen, store) := w.store.endManual feed
    { w with store }.answered (.flag wasOpen)
  | .openManualFeeds => w.answered (.number w.store.openManualFeeds)
  | .setFailure cause => { w with store := { w.store with failure := cause } }.answered .done

def proceed (w : World) : Activity → Standing × World
  | .zone lookup name (some fetch) =>
    zoneStanding name (continueFetch .zones .zone lookup name (w.resume fetch))
  | .zone lookup name none =>
    zoneStanding name (w.continueLookup .zones .zone (w.catalog.fetchZone name) lookup name)
  | .location lookup label zone (some fetch) =>
    locationStanding label zone
      (continueFetch .locations .location lookup (Catalog.locationKey label zone)
        (w.resume fetch))
  | .location lookup label zone none =>
    locationStanding label zone
      (w.continueLookup .locations .location (w.catalog.fetchLocation label zone) lookup
        (Catalog.locationKey label zone))
  | .working work =>
    match w.resume work with
    | (.finished finish, w) =>
      let (answer, w) := finish w
      (.answered answer, w)
    | (.suspended work, w) => (.waiting (.working work), w)
  | .starting work => continueStart (w.resume work)
  | .stopping worker answer => w.awaitEnd worker answer
  | .sleeping due => if due ≤ w.millis then w.answered .done else (.waiting (.sleeping due), w)

/-- Gives up a call. A request on its way is forgotten, and a refresher that was told to stop stops
nevertheless. -/
def giveUp (w : World) : Activity → World
  | .zone lookup _ _ => w.setCache .zones ((w.cacheOf .zones).abandon lookup)
  | .location lookup _ _ _ => w.setCache .locations ((w.cacheOf .locations).abandon lookup)
  | _ => w

def lookupReady {V : Type} (c : Cache LoadError V) (lookup : Nat) : Bool :=
  c.hasTurn lookup || (c.conclude lookup).isSome

def isReady (w : World) : Activity → Bool
  | .zone _ _ (some fetch) => w.isDue fetch
  | .zone lookup _ none => lookupReady w.catalog.zones lookup
  | .location _ _ _ (some fetch) => w.isDue fetch
  | .location lookup _ _ none => lookupReady w.catalog.locations lookup
  | .working work => w.isDue work
  | .starting work => w.isDue work
  | .stopping worker _ => w.isFinished worker
  | .sleeping due => due ≤ w.millis

end World

/-- The time at which a call can go on by itself, if there is one. -/
def Activity.due? : Activity → Option Nat
  | .zone _ _ fetch => fetch.map (·.pending.due)
  | .location _ _ _ fetch => fetch.map (·.pending.due)
  | .working work => some work.pending.due
  | .starting work => some work.pending.due
  | .stopping _ _ => none
  | .sleeping due => some due

end ZoneCatalog
