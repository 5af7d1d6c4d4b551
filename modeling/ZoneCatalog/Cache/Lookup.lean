import ZoneCatalog.Cache.Basic

/-! The moves of a cache. A lookup begins, takes its turn if it is the one to fetch, and concludes
with what came of its flight; in between other lookups may move, and a lookup may be given up. Each
move is one function from caches to caches. -/
namespace ZoneCatalog.Cache

variable {ε V : Type}

/-- The entry of a key if it may be served without a fetch. -/
def current? (c : Cache ε V) (key : String) (now : Seconds) : Option (Entry V) :=
  (c.entries.get? key).filter (·.isCurrent now)

inductive Begun (V : Type) where
  | hit (entry : Entry V)
  | joined (lookup : Nat)

def flightFor (c : Cache ε V) (key : String) : Flight ε V :=
  (c.flights.get? key).getD ⟨c.nextFlight, none, [], none⟩

/-- A flight with one more lookup in it. The first to come is the one to fetch. -/
def Flight.board (f : Flight ε V) (lookup : Nat) : Flight ε V :=
  match f.outcome, f.holder with
  | some _, _ => f
  | none, none => { f with holder := some lookup }
  | none, some _ => { f with queue := f.queue ++ [lookup] }

def Flight.entryPhase (f : Flight ε V) : Phase ε V :=
  match f.outcome with
  | some outcome => .landed outcome
  | none => .waiting

def join (c : Cache ε V) (key : String) : Nat × Cache ε V :=
  let flight := c.flightFor key
  let lookup : Lookup ε V := ⟨key, c.entries.get? key, flight.number, flight.entryPhase⟩
  (c.nextLookup, { c with
    flights := c.flights.insert key (flight.board c.nextLookup)
    lookups := c.lookups.insert c.nextLookup lookup
    counters := { c.counters with misses := c.counters.misses + 1 }
    nextFlight := if (c.flights.get? key).isSome then c.nextFlight else c.nextFlight + 1
    nextLookup := c.nextLookup + 1 })

def begin (c : Cache ε V) (key : String) (now : Seconds) : Begun V × Cache ε V :=
  match c.current? key now with
  | some entry => (.hit entry, { c with counters.hits := c.counters.hits + 1 })
  | none =>
    let (lookup, c) := c.join key
    (.joined lookup, c)

/-- Whether it is a lookup's turn to fetch. -/
def hasTurn (c : Cache ε V) (number : Nat) : Bool :=
  match c.lookups.get? number with
  | some lookup =>
    match lookup.phase, c.flights.get? lookup.key with
    | .waiting, some flight => flight.number == lookup.flight && flight.holder == some number
    | _, _ => false
  | none => false

/-- Ends the flight of a key. All lookups in it learn what came of it. -/
def land (c : Cache ε V) (key : String) (outcome : Outcome ε V) : Cache ε V :=
  match c.flights.get? key with
  | some flight => { c with
      flights := c.flights.insert key
        { flight with holder := none, queue := [], outcome := some outcome }
      lookups := c.lookups.mapValues fun _ lookup =>
        if lookup.key = key ∧ lookup.flight = flight.number then
          { lookup with phase := .landed outcome }
        else lookup }
  | none => c

/-- A lookup that has its turn looks again before it fetches. A flight before this one may have
brought a current entry. -/
def spare? (c : Cache ε V) (number : Nat) (now : Seconds) : Option (Cache ε V) :=
  match c.lookups.get? number with
  | some lookup => (c.current? lookup.key now).map fun entry => c.land lookup.key (.ok entry)
  | none => none

/-- A fetch starts. Its value will be current for the lifetime from now on, however long the fetch
takes. -/
def start (c : Cache ε V) (number : Nat) (now : Seconds) : Cache ε V :=
  match c.lookups.get? number with
  | some lookup => { c with
      lookups := c.lookups.insert number
        { lookup with phase := .fetching c.nextFetch (now.later c.lifetime) }
      nextFetch := c.nextFetch + 1 }
  | none => c

/-- A fetch ends. A value takes the place of the entry there was; a failure leaves it. -/
def finish (c : Cache ε V) (number : Nat) (result : Except ε V) : Cache ε V :=
  match c.lookups.get? number with
  | some lookup =>
    match lookup.phase, result with
    | .fetching serial expiresAt, .ok value =>
      let entry : Entry V := ⟨serial, expiresAt, value⟩
      { c with entries := c.entries.insert lookup.key entry }.land lookup.key (.ok entry)
    | .fetching _ _, .error cause => c.land lookup.key (.error cause)
    | _, _ => c
  | none => c

inductive Answer (ε V : Type) where
  | found (entry : Entry V)
  /-- An old entry, as there was no fetching a new one. -/
  | stale (entry : Entry V) (cause : ε)
  | failed (cause : ε)

def Answer.entry? : Answer ε V → Option (Entry V)
  | .found entry => some entry
  | .stale entry _ => some entry
  | .failed _ => none

/-- Frees the key of a flight that is over, unless a later flight has it. -/
def release (c : Cache ε V) (key : String) (flight : Nat) : Cache ε V :=
  match c.flights.get? key with
  | some f => if f.number = flight then { c with flights := c.flights.erase key } else c
  | none => c

/-- What a lookup answers. After a failure it falls back on the entry that was cached when it
began, or else on one that is cached now. -/
def answerOf (c : Cache ε V) (lookup : Lookup ε V) : Outcome ε V → Answer ε V
  | .ok entry => .found entry
  | .error cause =>
    match lookup.cached.or (c.entries.get? lookup.key) with
    | some entry => .stale entry cause
    | none => .failed cause

def Counters.count (n : Counters) : Answer ε V → Counters
  | .found _ => n
  | .stale _ _ => { n with failures := n.failures + 1, stale := n.stale + 1 }
  | .failed _ => { n with failures := n.failures + 1 }

/-- A lookup whose flight is over is answered. -/
def conclude (c : Cache ε V) (number : Nat) : Option (Answer ε V × Cache ε V) :=
  match c.lookups.get? number with
  | some lookup =>
    match lookup.phase with
    | .landed outcome =>
      let answer := c.answerOf lookup outcome
      let c := c.release lookup.key lookup.flight
      some (answer, { c with
        lookups := c.lookups.erase number
        counters := c.counters.count answer })
    | _ => none
  | none => none

/-- A flight without one of its lookups. The turn goes to the one that has waited longest. -/
def Flight.leave (f : Flight ε V) (number : Nat) : Flight ε V :=
  if f.holder = some number then { f with holder := f.queue.head?, queue := f.queue.tail }
  else { f with queue := f.queue.filter (· ≠ number) }

/-- A lookup is given up. Its flight stays open to others. -/
def abandon (c : Cache ε V) (number : Nat) : Cache ε V :=
  match c.lookups.get? number with
  | some lookup =>
    let c := { c with lookups := c.lookups.erase number }
    match c.flights.get? lookup.key with
    | some flight =>
      if flight.number = lookup.flight then
        { c with flights := c.flights.insert lookup.key (flight.leave number) }
      else c
    | none => c
  | none => c

end ZoneCatalog.Cache
