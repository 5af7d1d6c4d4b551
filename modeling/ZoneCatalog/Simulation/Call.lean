import ZoneCatalog.Catalog.Lookup
import ZoneCatalog.Simulation.Step
import ZoneCatalog.Simulation.Worker

/-! Calls: what is asked of a world, from its beginning over the points at which it waits to its
answer. -/
namespace ZoneCatalog

/-- What a call waits for. -/
inductive Activity where
  /-- A lookup in the cache of zones: its turn or the outcome of its flight, or the store. -/
  | zone (lookup : Nat) (name : String) (fetch : Option (Suspended (Except LoadError Zone)))
  | location (lookup : Nat) (label zone : String)
      (fetch : Option (Suspended (Except LoadError Location)))
  /-- The store, for a result that is dealt with in one go. -/
  | working (work : Suspended (World → Answer × World))
  | starting (work : Suspended (Except StoreError (List String)))
  | stopping (worker : Nat) (answer : Answer)
  | sleeping (due : Nat)

inductive Standing where
  | answered (answer : Answer)
  | waiting (activity : Activity)

namespace World

/-- What is dealt with in one go, up to the first wait. -/
def work (w : World) (program : Program (World → Answer × World)) : Standing × World :=
  match w.run program with
  | (.finished finish, w) =>
    let (answer, w) := finish w
    (.answered answer, w)
  | (.suspended work, w) => (.waiting (.working work), w)

def answering {α : Type} (program : Program α) (answer : α → Answer) :
    Program (World → Answer × World) := do
  let result ← program
  return fun w => (answer result, w)

/-- Work whose failure is answered as such. -/
def attempting {ε α : Type} (program : Fallible ε α) (failure : ε → Answer)
    (answer : α → Answer) : Program (World → Answer × World) :=
  answering program.run fun
    | .ok result => answer result
    | .error cause => failure cause

def addFeed (w : World) (feed : FeedId) : Answer × World :=
  (.feed w.feeds.length, { w with feeds := w.feeds ++ [some feed] })

def requesting (r : StoreRequest) : Program (World → Answer × World) :=
  .ask r fun
    | .error cause => .done fun w => (.storeFailure cause, w)
    | .ok reply => .done fun w =>
      match r, reply with
      | .members _, reply => (.texts reply, w)
      | .fieldNames _, reply => (.texts reply, w)
      | .get _, reply => (.text reply, w)
      | .field _ _, reply => (.text reply, w)
      | .setField _ _ _, _ => (.none, w)
      | .subscribe _, reply => w.addFeed reply

/-! Lookups. -/

section Lookup

variable {V : Type} (k : CacheOf V)

def cacheOf (w : World) : Cache LoadError V := k.get w.catalog

def setCache (w : World) (cache : Cache LoadError V) : World :=
  { w with catalog := k.set w.catalog cache }

/-- The answer to a lookup, or its number and what it waits for. -/
inductive LookupStanding (V : Type) where
  | answered (answer : Answer)
  | waiting (lookup : Nat) (fetch : Option (Suspended (Except LoadError V)))

/-- Answers a lookup if its flight is over. -/
def concludeLookup (wrap : Entry V → Answer) (lookup : Nat) (key : String) (w : World) :
    LookupStanding V × World :=
  match (w.cacheOf k).conclude lookup with
  | some (answer, cache) =>
    let w := (w.setCache k cache).report (Catalog.noticesOf k.name key answer)
    (.answered ((answer.entry?.map wrap).getD .none), w)
  | none => (.waiting lookup none, w)

def continueFetch (wrap : Entry V → Answer) (lookup : Nat) (key : String) :
    Progress (Except LoadError V) × World → LookupStanding V × World
  | (.finished result, w) =>
    (w.setCache k ((w.cacheOf k).finish lookup result)).concludeLookup k wrap lookup key
  | (.suspended work, w) => (.waiting lookup (some work), w)

/-- Starts the fetch of a lookup. The clock is read for the time up to which the value will be
current, and goes on before the fetch begins. -/
def startFetch (lookup : Nat) (w : World) : World :=
  let w := w.tick
  (w.setCache k ((w.cacheOf k).start lookup w.clock)).tick

/-- Goes on with a lookup that is not fetching: it concludes, or takes its turn. -/
def continueLookup (wrap : Entry V → Answer) (fetch : Fallible LoadError V) (lookup : Nat)
    (key : String) (w : World) : LookupStanding V × World :=
  if (w.cacheOf k).hasTurn lookup then
    match (w.cacheOf k).spare? lookup w.clock with
    | some cache => (w.setCache k cache).concludeLookup k wrap lookup key
    | none => continueFetch k wrap lookup key ((w.startFetch k lookup).run fetch.run)
  else w.concludeLookup k wrap lookup key

def beginLookup (wrap : Entry V → Answer) (fetch : Fallible LoadError V) (key : String)
    (w : World) : LookupStanding V × World :=
  match (w.cacheOf k).begin key w.clock with
  | (.hit entry, cache) => (.answered (wrap entry), w.setCache k cache)
  | (.joined lookup, cache) => (w.setCache k cache).tick.continueLookup k wrap fetch lookup key

end Lookup

/-! Starting and stopping the catalog. -/

def awaitEnd (w : World) (worker : Nat) (answer : Answer) : Standing × World :=
  if w.isFinished worker then (.answered answer, w.report (w.endNotices worker))
  else (.waiting (.stopping worker answer), w)

/-- The catalog starts for good once its zones were read or could not be. A refresher that was
started in the meantime is stopped. -/
def finishStart (w : World) (result : Except StoreError (List String)) : Standing × World :=
  let (answer, w) : Answer × World := match result with
    | .ok zones =>
      let (count, w) := w.publishZones .catalog zones
      (.none, w.report [.loaded count])
    | .error cause => (.storeFailure cause, w.report [.loadFailed cause])
  let (number, w) := w.spawn w.catalog.plan.1 .catalog
  let (previous, catalog) := w.catalog.install number
  let w := { w with catalog }
  match previous with
  | some previous => (w.stop previous).awaitEnd previous answer
  | none => (.answered answer, w)

def continueStart : Progress (Except StoreError (List String)) × World → Standing × World
  | (.finished result, w) => w.finishStart result
  | (.suspended work, w) => (.waiting (.starting work), w)

/-- Starts the catalog, unless it was started before. -/
def beginStart (w : World) : Standing × World :=
  if w.catalog.refresher.isSome then (.answered .none, w.report [.alreadyStarted])
  else
    let w := w.report w.catalog.plan.2
    continueStart (w.run (.ask (.members w.catalog.keys.zoneSet) .done))

def beginShutdown (w : World) : Standing × World :=
  match w.catalog.uninstall with
  | (some worker, catalog) =>
    ({ w with catalog }.stop worker).awaitEnd worker .done
  | (none, catalog) => (.answered .done, { w with catalog }.report [.notStarted])

end World
end ZoneCatalog
