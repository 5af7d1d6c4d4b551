import ZoneCatalog.Store.Content
import ZoneCatalog.Store.Feed

/-! A store held in memory. It tells its feeds of every change, counts the reads it serves, and can
be set to be slow or out of reach. Time is counted in milliseconds. -/
namespace ZoneCatalog

structure MemoryStore where
  content : Content := {}
  feeds : List Feed := []
  nextFeed : Nat := 0
  reads : Nat := 0
  offline : Bool := false
  /-- How long every request takes. -/
  latency : Nat := 0
  /-- How long a request may take. -/
  readTimeout : Nat := 500

/-- A request that is on its way. -/
structure Pending (r : StoreRequest) where
  due : Nat
  /-- Whether time runs out before the store gets to it. -/
  expired : Bool
deriving DecidableEq

namespace MemoryStore

def notify (s : MemoryStore) (key : String) : MemoryStore :=
  { s with feeds := s.feeds.map (·.notify key) }

def set (s : MemoryStore) (key value : String) : MemoryStore :=
  { s with content := s.content.setString key value }.notify key

def putField (s : MemoryStore) (key name value : String) : MemoryStore :=
  { s with content := s.content.setField key name value }.notify key

/-- Deletes whatever is at a key; only what was there makes it a change. -/
def delete (s : MemoryStore) (key : String) : MemoryStore :=
  if s.content.holds key then { s with content := s.content.delete key }.notify key else s

/-- Adds a member to a set; only a new one makes it a change. -/
def addMember (s : MemoryStore) (key member : String) : MemoryStore :=
  let added := { s with content := s.content.addMember key member }
  if s.content.hasMember key member then added else added.notify key

/-- Removes a member from a set; only one that was there makes it a change. -/
def removeMember (s : MemoryStore) (key member : String) : MemoryStore :=
  if s.content.hasMember key member then
    { s with content := s.content.removeMember key member }.notify key
  else s

def openFeeds (s : MemoryStore) : Nat := s.feeds.length

def openFeed (s : MemoryStore) (pattern : String) : Nat × MemoryStore :=
  (s.nextFeed, { s with
    feeds := s.feeds ++ [.opened s.nextFeed pattern]
    nextFeed := s.nextFeed + 1 })

/-- Closes a feed; what nobody read of it is lost. -/
def closeFeed (s : MemoryStore) (number : Nat) : MemoryStore :=
  { s with feeds := s.feeds.filter (·.number ≠ number) }

/-- Reads the oldest event of a feed. A feed never ends while its store exists, and one that is not
open has nothing to say. -/
def readFeed (s : MemoryStore) (number : Nat) : FeedRead × MemoryStore :=
  match s.feeds.find? (·.number = number) with
  | some feed =>
    match feed.queue with
    | e :: rest =>
      (.event e, { s with feeds := s.feeds.map fun f =>
        if f.number = number then { f with queue := rest } else f })
    | [] => (.silent, s)
  | none => (.silent, s)

/-- The request as it is sent at a time. It takes the latency of that moment, but no longer than
the timeout if it is a timed one; what is done in just that time is still in time. -/
def send (s : MemoryStore) (now : Nat) (r : StoreRequest) : Pending r :=
  if r.isTimed ∧ s.readTimeout < s.latency then ⟨now + s.readTimeout, true⟩
  else ⟨now + s.latency, false⟩

/-- The answer of a store that is within reach, and the store after it. -/
def serve (s : MemoryStore) : (r : StoreRequest) → r.Reply × MemoryStore
  | .members key => (s.content.members key, { s with reads := s.reads + 1 })
  | .fieldNames key => (s.content.fieldNames key, { s with reads := s.reads + 1 })
  | .get key => (s.content.strings.get? key, { s with reads := s.reads + 1 })
  | .field key name => (s.content.field? key name, { s with reads := s.reads + 1 })
  | .setField key name value => ((), s.putField key name value)
  | .subscribe pattern =>
    let (number, s) := s.openFeed pattern
    (.live number, s)

/-- The answer to a request when it is due. A request that fails leaves the store as it was. -/
def answer (s : MemoryStore) {r : StoreRequest} (p : Pending r) : r.Result × MemoryStore :=
  if p.expired then (.error (.timeout s.readTimeout), s)
  else if s.offline then (.error (.unavailable "in-memory store is offline"), s)
  else
    let (reply, s) := s.serve r
    (.ok reply, s)

end MemoryStore
end ZoneCatalog
