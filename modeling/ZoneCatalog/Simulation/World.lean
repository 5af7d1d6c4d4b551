import ZoneCatalog.Catalog.Basic
import ZoneCatalog.Store.Scripted

/-! A catalog over a store in memory, in a world with a time of its own. Time is counted in
milliseconds from the start, and passes only when nothing else can happen. The clock that the
catalog reads is independent of it: it is set by hand, and may go on from one reading to the
next. -/
namespace ZoneCatalog

/-- Work that waits for the answer to a request. -/
structure Suspended (α : Type) where
  request : StoreRequest
  pending : Pending request
  next : request.Result → Program α

/-- Where work stands. -/
inductive Progress (α : Type) where
  | finished (result : α)
  | suspended (work : Suspended α)

inductive IndexOwner where
  | catalog
  | solo (number : Nat)
deriving DecidableEq, Repr

structure Worker where
  refresher : Refresher
  owner : IndexOwner
  /-- The request whose answer it waits for. -/
  request : Option (Suspended Refresher.Occurrence) := none
  /-- Whether it waits for its next turn. -/
  paused : Bool := false

structure Alarm where
  worker : Nat
  due : Nat
deriving DecidableEq, Repr

inductive SoloState where
  | ready
  | running (worker : Nat)
  | stopped
deriving DecidableEq, Repr

/-- A refresher that runs for itself, with an index of its own. -/
structure Solo where
  plan : RefresherPlan
  index : ZoneIndex := .empty
  state : SoloState := .ready

structure World where
  millis : Nat := 0
  clock : Seconds
  /-- The seconds by which the clock goes on from one reading of a lookup to the next. -/
  ticks : List UInt64 := []
  /-- The seconds for which the machine had been running at the start. -/
  uptime : Nat := 86400
  store : ScriptedStore
  catalog : Catalog
  /-- All refreshers that were ever started, by their numbers. -/
  workers : List Worker := []
  /-- The refreshers that were woken and have not moved since, the one first woken first. -/
  queue : List Nat := []
  /-- The alarms that are still to go off, the one first set first. -/
  alarms : List Alarm := []
  solos : List Solo := []
  /-- The feeds that somebody reads by hand, by their numbers; those closed are left out. -/
  feeds : List (Option FeedId) := []
  /-- The zones and the locations that were answered from the caches, by their numbers. -/
  shownZones : List (Entry Zone) := []
  shownLocations : List (Entry Location) := []
  /-- What was reported and not yet read, the last report first. -/
  notices : List Notice := []
  /-- How often an index was published. -/
  reloads : Nat := 0
  /-- The number of zones in the index published last. -/
  indexed : Nat := 0

namespace World

def report (w : World) (notices : List Notice) : World :=
  { w with notices := notices.reverse ++ w.notices }

/-- The end of time, in milliseconds from the start. -/
def endOfTime (w : World) : Nat := Interval.endOfTime w.uptime

/-- The clock goes on, or stands still if there are no more ticks. -/
def tick (w : World) : World :=
  { w with clock := w.clock.later (w.ticks.headD 0), ticks := w.ticks.tail }

/-- Works until the store has to be waited for. -/
def run {α : Type} (w : World) : Program α → Progress α × World
  | .done result => (.finished result, w)
  | .ask request next =>
    match w.store.send w.millis request with
    | .answered result store => { w with store }.run (next result)
    | .pending pending => (.suspended ⟨request, pending, next⟩, w)
  | .time next => w.run (next w.clock)
  | .report notice rest => (w.report [notice]).run rest

def isDue {α : Type} (w : World) (work : Suspended α) : Bool := work.pending.due ≤ w.millis

/-- Goes on with work if the answer that it waits for is there. -/
def resume {α : Type} (w : World) (work : Suspended α) : Progress α × World :=
  if w.isDue work then
    let (result, store) := w.store.answer work.pending
    { w with store }.run (work.next result)
  else (.suspended work, w)

def publish (w : World) (owner : IndexOwner) (index : ZoneIndex) : World :=
  let w := { w with reloads := w.reloads + 1, indexed := index.size }
  match owner with
  | .catalog => { w with catalog.index := index }
  | .solo number => { w with solos := w.solos.modify number fun solo => { solo with index } }

/-- Publishes the index of zones that were read, and gives their number. -/
def publishZones (w : World) (owner : IndexOwner) (zones : List String) : Nat × World :=
  let (index, notices) := Refresher.indexOf zones
  (index.size, (w.report notices).publish owner index)

end World
end ZoneCatalog
