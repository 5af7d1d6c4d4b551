import ZoneCatalog.Store.Request
import ZoneCatalog.Text.Glob

/-! Change feeds: the events that nobody has read yet, oldest first. A full queue loses what is
offered to it, so whoever reads a feed can tell that something changed but not how often. -/
namespace ZoneCatalog

/-- The most events that wait in a feed. -/
def feedCapacity : Nat := 64

abbrev EventQueue := List StoreEvent

/-- The queue with an event at its end, if there is room. -/
def EventQueue.offer (q : EventQueue) (e : StoreEvent) : EventQueue :=
  if q.length < feedCapacity then q ++ [e] else q

/-- A feed that is open at its reading end. -/
structure Feed where
  number : Nat
  pattern : String
  queue : EventQueue
deriving DecidableEq

namespace Feed

def opened (number : Nat) (pattern : String) : Feed := ⟨number, pattern, [.connected]⟩

def covers (f : Feed) (key : String) : Bool := Text.Glob.isMatch f.pattern key

def notify (f : Feed) (key : String) : Feed :=
  if f.covers key then { f with queue := EventQueue.offer f.queue (.changed key) } else f

end Feed

inductive FeedRead where
  | event (e : StoreEvent)
  /-- Nothing yet. -/
  | silent
  /-- Nothing any more. -/
  | ended
deriving DecidableEq, Repr

end ZoneCatalog
