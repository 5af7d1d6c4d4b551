import ZoneCatalog.Store.Memory

/-! A store in memory that can be told to fail every request, and to hand out feeds that are filled
by hand in place of its own. -/
namespace ZoneCatalog

/-- A feed that is filled by hand. It has two ends, and either may be given up first. -/
structure ManualFeed where
  queue : EventQueue := []
  reading : Bool := true
  writing : Bool := true
deriving DecidableEq

/-- A store under a script. -/
structure ScriptedStore where
  memory : MemoryStore
  failure : Option StoreError := none
  /-- Whether subscriptions get a feed that is filled by hand. -/
  manualFeeds : Bool := false
  /-- The feeds handed out, by their numbers. -/
  manual : List ManualFeed := []

namespace ScriptedStore

/-- What becomes of a request at once: an answer, or a time at which it will be answered. -/
inductive Sent (r : StoreRequest) where
  | answered (result : r.Result) (store : ScriptedStore)
  | pending (p : Pending r)

def openManual (s : ScriptedStore) : FeedId × ScriptedStore :=
  (.manual s.manual.length, { s with manual := s.manual ++ [{}] })

def answer (s : ScriptedStore) {r : StoreRequest} (p : Pending r) : r.Result × ScriptedStore :=
  let (result, memory) := s.memory.answer p
  (result, { s with memory })

/-- The request as the store in memory takes it. One that takes no time is answered at once. -/
def forward (s : ScriptedStore) (now : Nat) (r : StoreRequest) : Sent r :=
  let p := s.memory.send now r
  if p.due ≤ now then
    let (result, s) := s.answer p
    .answered result s
  else .pending p

/-- Sends a request. A script answers for the store before it takes any time. -/
def send (s : ScriptedStore) (now : Nat) (r : StoreRequest) : Sent r :=
  match s.failure, r with
  | some cause, _ => .answered (.error cause) s
  | none, .subscribe pattern =>
    if s.manualFeeds then
      let (feed, s) := s.openManual
      .answered (.ok feed) s
    else s.forward now (.subscribe pattern)
  | none, r => s.forward now r

def modifyManual (s : ScriptedStore) (number : Nat) (change : ManualFeed → ManualFeed) :
    ScriptedStore :=
  { s with manual := s.manual.modify number change }

/-- Puts an event into a feed, and says whether it could be. -/
def post (s : ScriptedStore) (number : Nat) (e : StoreEvent) : Bool × ScriptedStore :=
  match s.manual[number]? with
  | some feed =>
    if feed.writing ∧ feed.reading ∧ feed.queue.length < feedCapacity then
      (true, s.modifyManual number fun feed => { feed with queue := feed.queue ++ [e] })
    else (false, s)
  | none => (false, s)

/-- Gives up the writing end of a feed, and says whether it was open. -/
def endManual (s : ScriptedStore) (number : Nat) : Bool × ScriptedStore :=
  match s.manual[number]? with
  | some feed => (feed.writing, s.modifyManual number fun feed => { feed with writing := false })
  | none => (false, s)

def openManualFeeds (s : ScriptedStore) : Nat := s.manual.countP (·.reading)

def closeFeed (s : ScriptedStore) : FeedId → ScriptedStore
  | .live number => { s with memory := s.memory.closeFeed number }
  | .manual number => s.modifyManual number fun feed => { feed with reading := false, queue := [] }

def readFeed (s : ScriptedStore) : FeedId → FeedRead × ScriptedStore
  | .live number =>
    let (found, memory) := s.memory.readFeed number
    (found, { s with memory })
  | .manual number =>
    match s.manual[number]? with
    | some feed =>
      match feed.queue with
      | e :: rest => (.event e, s.modifyManual number fun feed => { feed with queue := rest })
      | [] => (if feed.writing then .silent else .ended, s)
    | none => (.silent, s)

end ScriptedStore
end ZoneCatalog
