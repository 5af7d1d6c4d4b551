import ZoneCatalog.Simulation.World

/-! The refreshers of a world and when they are woken. Those that were woken move in the order in
which they were, and alarms for the same time go off in the order in which they were set. -/
namespace ZoneCatalog

/-- Whether a refresher is woken by what happens around it. -/
def Worker.isIdle (worker : Worker) : Bool := worker.refresher.phase = .idle

/-- The times at which a refresher has to be woken. One that asks for a new feed has already looked
for the next time of its reload interval. -/
def Worker.dues (worker : Worker) : List Nat :=
  match worker.request, worker.refresher.phase with
  | some work, .resubscribing => [worker.refresher.reload.due, work.pending.due]
  | some work, _ => [work.pending.due]
  | none, .idle => [worker.refresher.reload.due, worker.refresher.forced.due]
  | none, _ => []

namespace World

def setWorker (w : World) (number : Nat) (worker : Worker) : World :=
  { w with workers := w.workers.set number worker }

/-- Wakes a refresher. One that was woken before keeps its place. -/
def wake (w : World) (number : Nat) : World :=
  if number ∈ w.queue then w else { w with queue := w.queue ++ [number] }

def wakeAll (w : World) (numbers : List Nat) : World := numbers.foldl wake w

def spawn (w : World) (plan : RefresherPlan) (owner : IndexOwner) : Nat × World :=
  let worker : Worker := { refresher := .starting plan, owner }
  (w.workers.length, { w with workers := w.workers ++ [worker] }.wake w.workers.length)

def stop (w : World) (number : Nat) : World :=
  match w.workers[number]? with
  | some worker =>
    let w := w.setWorker number { worker with refresher.stopping := true }
    if worker.isIdle then w.wake number else w
  | none => w

def isFinished (w : World) (number : Nat) : Bool :=
  match w.workers[number]? with
  | some worker => worker.refresher.phase.isFinal
  | none => true

/-- What is to be said about the end of a refresher by whoever waited for it. -/
def endNotices (w : World) (number : Nat) : List Notice :=
  match w.workers[number]? with
  | some worker => if worker.refresher.phase = .failed then [.refresherFailed] else []
  | none => []

/-- Sets alarms for a refresher at the times that are still to come. One that is set already keeps
its place. -/
def setAlarms (w : World) (number : Nat) (dues : List Nat) : World :=
  let alarms := (dues.filter (w.millis < ·)).map (Alarm.mk number)
  { w with alarms := w.alarms ++ alarms.filter (· ∉ w.alarms) }

def clearAlarms (w : World) (number : Nat) : World :=
  { w with alarms := w.alarms.filter (·.worker ≠ number) }

/-- Lets time pass up to a moment, and wakes the refreshers whose alarms go off. -/
def passTo (w : World) (moment : Nat) : World :=
  let now := max w.millis moment
  let (past, later) := w.alarms.partition (·.due ≤ now)
  { w with millis := now, alarms := later }.wakeAll (past.map Alarm.worker)

end World
end ZoneCatalog
