import ZoneCatalog.Notice
import ZoneCatalog.Refresher.Interval
import ZoneCatalog.Store.Keys
import ZoneCatalog.Store.Request
import ZoneCatalog.Zone.Index

/-! The refresher, which keeps an index in step with the zone set of the store. It listens to a feed
of changes, and on every tick of its reload interval it reads the zone set anew if there was any.
Now and then it takes a change for granted, and asks for a feed again if it has none. -/
namespace ZoneCatalog

/-- The least interval, in milliseconds. -/
def leastInterval : Nat := 100

/-- The interval after which a change is taken for granted, in milliseconds. -/
def defaultForcedInterval : Nat := 3600000

/-- What a refresher is told to do. Intervals are in milliseconds. -/
structure RefresherPlan where
  /-- The key of the zone set, which is also the pattern of the feed. -/
  zoneSet : String
  reloadEvery : Nat
  forceEvery : Nat := defaultForcedInterval
deriving DecidableEq, Repr

namespace RefresherPlan

/-- An interval, or the least one in place of a shorter one. -/
def atLeast (interval : String) (millis : Nat) : Nat × List Notice :=
  if millis < leastInterval then
    (leastInterval, [.intervalTooShort interval millis leastInterval])
  else (millis, [])

def make (keys : StoreKeys) (reloadEvery : Nat) : RefresherPlan × List Notice :=
  let (reloadEvery, notices) := atLeast "reload" reloadEvery
  ({ zoneSet := keys.zoneSet, reloadEvery }, notices)

/-- The plan with another interval after which a change is taken for granted. -/
def withForced (plan : RefresherPlan) (forceEvery : Nat) : RefresherPlan × List Notice :=
  let (forceEvery, notices) := atLeast "forced reload" forceEvery
  ({ plan with forceEvery }, notices)

end RefresherPlan

inductive RefresherPhase where
  | subscribing
  | idle
  | reloading
  | resubscribing
  | closing
  | finished
  /-- It came to its end because an interval reaches past the end of time. -/
  | failed
deriving DecidableEq, Repr

def RefresherPhase.isFinal : RefresherPhase → Bool
  | finished | failed => true
  | _ => false

structure Refresher where
  plan : RefresherPlan
  phase : RefresherPhase := .subscribing
  /-- Whether the index may be out of date. -/
  modified : Bool := true
  feed : Option FeedId := none
  reload : Interval
  forced : Interval
  stopping : Bool := false
deriving DecidableEq, Repr

namespace Refresher

/-- A refresher as it starts. Its intervals are set anew by the answer to its first subscription. -/
def starting (plan : RefresherPlan) : Refresher where
  plan
  reload := .starting plan.reloadEvery 0
  forced := .starting plan.forceEvery 0

inductive Occurrence where
  | subscribed (result : Except StoreError FeedId)
  | event (e : StoreEvent)
  | feedEnded
  | reloadDue
  /-- The interval of taken-for-granted changes is due. -/
  | forcedDue
  | loaded (result : Except StoreError (List String))
  | stopped
  | closed

structure Consequence where
  refresher : Refresher
  notices : List Notice := []
  /-- The zones of which a new index is to be published. -/
  publish : Option ZoneIndex := none
  close : Option FeedId := none

/-- The index of the zones that were read, and a report of each text left out. -/
def indexOf (zones : List String) : ZoneIndex × List Notice :=
  let (index, refused) := ZoneIndex.build zones
  (index, refused.map fun (zone, cause) => .zoneSkipped zone cause)

/-- The feed of a subscription, and a report if there is none. -/
def feedOf (pattern : String) : Except StoreError FeedId → Option FeedId × List Notice
  | .ok feed => (some feed, [])
  | .error cause => (none, [.subscriptionFailed pattern cause])

/-- The refresher with its first feed, from when on its intervals count. -/
def begin (r : Refresher) (ending now : Nat) (feed : Option FeedId) (notices : List Notice) :
    Consequence :=
  match Interval.starting? ending r.plan.reloadEvery now,
    Interval.starting? ending r.plan.forceEvery now with
  | some reload, some forced =>
    { refresher := { r with phase := .idle, feed, reload, forced }
      notices := notices ++ [.refresherStarted r.plan.reloadEvery] }
  | _, _ => { refresher := { r with phase := .failed }, notices, close := feed }

/-- The refresher after something happened at a time. What it does depends on when time ends. -/
def react (r : Refresher) (ending now : Nat) : Occurrence → Consequence
  | .subscribed result =>
    let (feed, notices) := feedOf r.plan.zoneSet result
    match r.phase with
    | .subscribing => r.begin ending now feed notices
    | _ => { refresher := { r with phase := .idle, feed }, notices }
  | .event .connected => { refresher := { r with modified := true } }
  | .event (.changed _) => { refresher := { r with modified := true } }
  | .event (.failed cause) => { refresher := r, notices := [.feedFailed cause] }
  | .feedEnded =>
    { refresher := { r with feed := none }, notices := [.feedEnded], close := r.feed }
  | .reloadDue =>
    let r := { r with reload := r.reload.advance now }
    { refresher := if r.modified then { r with phase := .reloading } else r }
  | .forcedDue =>
    let r := { r with forced := r.forced.advance now, modified := true }
    { refresher := if r.feed.isNone then { r with phase := .resubscribing } else r }
  | .loaded (.ok zones) =>
    let (index, notices) := indexOf zones
    { refresher := { r with phase := .idle, modified := false }
      notices := notices ++ [.reloaded index.size]
      publish := some index }
  | .loaded (.error cause) =>
    { refresher := { r with phase := .idle }, notices := [.reloadFailed cause] }
  | .stopped => { refresher := { r with phase := .closing, feed := none }, close := r.feed }
  | .closed => { refresher := { r with phase := .finished }, notices := [.refresherStopped] }

end Refresher
end ZoneCatalog
