import ZoneCatalog.Cache.Lookup
import ZoneCatalog.Proofs.Steps

/-! Runs of a cache: its moves in any order, under any clock, with what is seen of each. Lookups
are answered apart from the end of their flight, so a flight that is over can still be joined.
Entries are never dropped. -/
namespace ZoneCatalog.Cache

variable {ε V : Type}

/-- What is seen of a move. A lookup goes by the number under which it joined its flight. -/
inductive Event (ε V : Type) where
  /-- A lookup is answered as it begins. -/
  | hit (key : String) (now : Seconds) (entry : Entry V)
  /-- A lookup begins and joins a flight. -/
  | joined (lookup : Nat) (key : String) (flight : Nat) (now : Seconds)
  /-- A lookup whose turn it is finds a current entry after all. -/
  | spared (lookup : Nat) (key : String) (now : Seconds)
  /-- A fetch starts. -/
  | started (lookup : Nat) (key : String) (serial : Nat) (now : Seconds)
  /-- A fetch ends. -/
  | fetched (lookup : Nat) (key : String) (serial : Nat) (result : Except ε V)
  | answered (lookup : Nat) (key : String) (answer : Answer ε V)
  | givenUp (lookup : Nat) (key : String)

/-- The key that a move is about. -/
def Event.key : Event ε V → String
  | .hit key _ _ | .joined _ key _ _ | .spared _ key _ | .started _ key _ _ => key
  | .fetched _ key _ _ | .answered _ key _ | .givenUp _ key => key

/-- One move of a cache. Lookups begin whenever they like, take their turn once they have it, and
can be given up at any point where they wait. -/
inductive Step : Cache ε V → Event ε V → Cache ε V → Prop where
  | hit {c c' : Cache ε V} {key : String} {now : Seconds} {entry : Entry V}
      (h : c.begin key now = (.hit entry, c')) : Step c (.hit key now entry) c'
  | joined {c c' : Cache ε V} {key : String} {now : Seconds} {n : Nat}
      (h : c.begin key now = (.joined n, c')) :
      Step c (.joined n key (c.flightFor key).number now) c'
  | spared {c c' : Cache ε V} {n : Nat} {l : Lookup ε V} {now : Seconds}
      (hl : c.lookups.get? n = some l) (turn : c.hasTurn n)
      (h : c.spare? n now = some c') : Step c (.spared n l.key now) c'
  | started {c : Cache ε V} {n : Nat} {l : Lookup ε V} {now : Seconds}
      (hl : c.lookups.get? n = some l) (turn : c.hasTurn n)
      (miss : c.spare? n now = none) : Step c (.started n l.key c.nextFetch now) (c.start n now)
  | fetched {c : Cache ε V} {n s : Nat} {l : Lookup ε V} {x : Seconds} (result : Except ε V)
      (hl : c.lookups.get? n = some l) (hp : l.phase = .fetching s x) :
      Step c (.fetched n l.key s result) (c.finish n result)
  | answered {c c' : Cache ε V} {n : Nat} {l : Lookup ε V} {a : Answer ε V}
      (hl : c.lookups.get? n = some l) (h : c.conclude n = some (a, c')) :
      Step c (.answered n l.key a) c'
  | givenUp {c : Cache ε V} {n : Nat} {l : Lookup ε V} (hl : c.lookups.get? n = some l) :
      Step c (.givenUp n l.key) (c.abandon n)

/-- The moves of a cache that was empty at first. -/
def Run (lifetime : UInt64) (h : List (Event ε V)) (c : Cache ε V) : Prop :=
  Steps Step { lifetime } h c

end ZoneCatalog.Cache
