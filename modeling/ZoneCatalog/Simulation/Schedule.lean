import ZoneCatalog.Simulation.Perform

/-! Which call moves when. At one moment all calls move in the order in which they are listed, then
the refreshers in the order in which they were woken, and again until nothing can move. Then time
passes up to the next moment at which something is due. -/
namespace ZoneCatalog

structure TimedStep where
  step : Step
  /-- The delay before the call begins, in milliseconds. -/
  startAfter : Nat := 0
  /-- How long after its beginning the call is given up, if it is not over by then. -/
  cancelAfter : Option Nat := none

inductive CallState where
  | delayed (due : Nat)
  | active (activity : Activity)
  | over (answer : Answer)

structure Call where
  step : Step
  cancelAfter : Option Nat
  /-- When the call is given up, once it has begun. -/
  cancelAt : Option Nat := none
  state : CallState

namespace Call

def ofStep (now : Nat) (s : TimedStep) : Call :=
  { step := s.step, cancelAfter := s.cancelAfter, state := .delayed (now + s.startAfter) }

def answer? (c : Call) : Option Answer :=
  match c.state with
  | .over answer => some answer
  | _ => none

def isExpired (c : Call) (now : Nat) : Bool :=
  match c.cancelAt with
  | some due => due ≤ now
  | none => false

def isReady (c : Call) (w : World) : Bool :=
  match c.state with
  | .delayed due => due ≤ w.millis
  | .active activity => w.isReady activity || c.isExpired w.millis
  | .over _ => false

/-- The call after a move. A call that is over at the moment its time is up counts as over. -/
def settle (c : Call) : Standing × World → Call × World
  | (.answered answer, w) => ({ c with state := .over answer }, w)
  | (.waiting activity, w) =>
    if c.isExpired w.millis then ({ c with state := .over .cancelled }, w.giveUp activity)
    else ({ c with state := .active activity }, w)

def move (c : Call) (w : World) : Call × World :=
  if c.isReady w then
    match c.state with
    | .delayed _ =>
      { c with cancelAt := c.cancelAfter.map (w.millis + ·) }.settle (w.begin c.step)
    | .active activity => c.settle (w.proceed activity)
    | .over _ => (c, w)
  else (c, w)

/-- The next time at which a call can move by itself. -/
def due? (c : Call) : Option Nat :=
  match c.state with
  | .delayed due => some due
  | .active activity =>
    match activity.due?, c.cancelAt with
    | some a, some b => some (min a b)
    | a, b => a.or b
  | .over _ => none

end Call

namespace World

def moveCalls (w : World) : List Call → List Call × World
  | [] => ([], w)
  | c :: rest =>
    let (c, w) := c.move w
    let (rest, w) := w.wakeReaders.moveCalls rest
    (c :: rest, w)

def canMove (w : World) (calls : List Call) : Bool :=
  calls.any (·.isReady w) || !w.queue.isEmpty

/-- Moves calls and refreshers until none can move. -/
def quiesce : (rounds : Nat) → World → List Call → List Call × World
  | 0, w, calls => (calls, w)
  | rounds + 1, w, calls =>
    if w.canMove calls then
      let (calls, w) := w.moveCalls calls
      quiesce rounds w.runWorkers calls
    else (calls, w)

/-- As many rounds as calls can make at one moment: each begins, takes a turn, sees a refresher end
and is given up at most once. -/
def rounds (calls : List Call) : Nat := 4 * calls.length + 4

def nextDue (w : World) (calls : List Call) : Option Nat :=
  (calls.filterMap Call.due? ++ w.alarms.map (·.due)).min?

/-- More moments than any call lasts. -/
def patience : Nat := Nat.pow 10 15

/-- Lets time pass until all calls are over. -/
def runCalls : (moments : Nat) → World → List Call → List Call × World
  | 0, w, calls => (calls, w)
  | moments + 1, w, calls =>
    let (calls, w) := quiesce (rounds calls) w calls
    if calls.all (·.answer?.isSome) then (calls, w)
    else
      match w.nextDue calls with
      | some due => runCalls moments (w.passTo due) calls
      | none => (calls, w)

/-- Takes steps at once, and answers all of them. -/
def takeAll (w : World) (steps : List TimedStep) : List Answer × World :=
  let (_, w) := quiesce (rounds []) w []
  let (calls, w) := runCalls patience w (steps.map (Call.ofStep w.millis))
  (calls.map fun c => c.answer?.getD .unfinished, w)

end World
end ZoneCatalog
