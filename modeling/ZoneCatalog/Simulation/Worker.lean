import ZoneCatalog.Simulation.Roster

/-! How refreshers move. Each takes its turn and goes on until it has to wait, for the store, its
feed or the next of its intervals. -/
namespace ZoneCatalog
namespace World

/-- The request that a refresher waits for in a phase, and what its answer means. -/
def requestIn (r : Refresher) : Option (Program Refresher.Occurrence) :=
  let subscribe := Program.ask (.subscribe r.plan.zoneSet) fun result => .done (.subscribed result)
  match r.phase with
  | .subscribing => some subscribe
  | .resubscribing => some subscribe
  | .reloading => some (.ask (.members r.plan.zoneSet) fun result => .done (.loaded result))
  | .idle | .closing | .finished | .failed => none

/-- What an idle refresher meets with: of all that is there the first in the order of this list. -/
def idleOccurrence (w : World) (r : Refresher) : Option (Refresher.Occurrence × World) :=
  if r.stopping then some (.stopped, w)
  else
    let (found, store) := match r.feed with
      | some feed => w.store.readFeed feed
      | none => (.silent, w.store)
    match found with
    | .event e => some (.event e, { w with store })
    | .ended => some (.feedEnded, w)
    | .silent =>
      if r.reload.due ≤ w.millis then some (.reloadDue, w)
      else if r.forced.due ≤ w.millis then some (.forcedDue, w)
      else none

/-- What a refresher that waits for no answer meets with. -/
def occurrence (w : World) (worker : Worker) : Option (Refresher.Occurrence × World) :=
  match worker.refresher.phase with
  | .idle => w.idleOccurrence worker.refresher
  | .closing => if worker.paused then none else some (.closed, w)
  | _ => none

/-- Lets something happen to a refresher. A feed that is filled by hand is closed for good only by
the refresher's next turn. -/
def happen (w : World) (number : Nat) (worker : Worker) (o : Refresher.Occurrence) : World :=
  let c := worker.refresher.react w.endOfTime w.millis o
  let w := w.report c.notices
  let w := match c.publish with
    | some index => w.publish worker.owner index
    | none => w
  let w := match c.close with
    | some feed => { w with store := w.store.closeFeed feed }
    | none => w
  let paused := c.refresher.phase = .closing && c.close.any (·.isManual)
  w.setWorker number { worker with refresher := c.refresher, request := none, paused }

/-- One move of a refresher, if it can move. -/
def stepWorker (w : World) (number : Nat) : Option World := do
  let worker ← w.workers[number]?
  match worker.request with
  | some work =>
    if w.isDue work then
      match w.resume work with
      | (.finished o, w) => some (w.happen number worker o)
      | (.suspended work, w) => some (w.setWorker number { worker with request := some work })
    else none
  | none =>
    match requestIn worker.refresher with
    | some program =>
      match w.run program with
      | (.finished o, w) => some (w.happen number worker o)
      | (.suspended work, w) => some (w.setWorker number { worker with request := some work })
    | none =>
      let (o, w) ← w.occurrence worker
      return w.happen number worker o

/-- The most moves of a refresher at one moment: one for every event that can wait in its feed, and
some for its intervals and its end. -/
def workerMoves : Nat := 2 * feedCapacity

/-- Lets a refresher move until it has to wait. -/
def runWorker (number : Nat) : (moves : Nat) → World → World
  | 0, w => w
  | moves + 1, w =>
    match w.stepWorker number with
    | some w => runWorker number moves w
    | none => w

/-- Prepares a refresher that has moved for what will wake it. -/
def rest (w : World) (number : Nat) : World :=
  match w.workers[number]? with
  | none => w
  | some worker =>
    if worker.refresher.phase.isFinal then w.clearAlarms number
    else if worker.paused then w.wake number
    else w.setAlarms number worker.dues

def takeTurn (w : World) (number : Nat) : World :=
  let w := { w with workers := w.workers.modify number fun worker =>
    { worker with paused := false } }
  (runWorker number workerMoves w).rest number

def runQueue (w : World) : World := w.queue.foldl takeTurn { w with queue := [] }

/-- Lets refreshers move until none can. Those that wait for a turn to close their feeds have a
second one, and need no third. -/
def runWorkers (w : World) : World := w.runQueue.runQueue

def hasNews (w : World) (worker : Worker) : Bool :=
  worker.isIdle && match worker.refresher.feed with
    | some feed => (w.store.readFeed feed).1 ≠ .silent
    | none => false

def wakeReaders (w : World) : World :=
  w.wakeAll ((List.range w.workers.length).filter fun number =>
    (w.workers[number]?).any w.hasNews)

end World
end ZoneCatalog
