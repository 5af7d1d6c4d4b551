import ZoneCatalog.Clock.Basic
import ZoneCatalog.Data.SortedMap

/-! A cache whose entries grow old. A lookup that finds no current entry joins the flight of its
key: one of the lookups in a flight fetches the value, the others wait for what comes of it. Old
entries stay, to be served if no new value can be had. -/
namespace ZoneCatalog

/-- A cached value. -/
structure Entry (V : Type) where
  /-- The number of the fetch that brought the value. -/
  serial : Nat
  /-- The last second at which the value is served without a fetch. -/
  expiresAt : Seconds
  value : V
deriving DecidableEq

def Entry.isCurrent {V : Type} (e : Entry V) (now : Seconds) : Bool := now ≤ e.expiresAt

namespace Cache

/-- What comes of a flight. -/
abbrev Outcome (ε V : Type) := Except ε (Entry V)

/-- One fetch that several lookups share. -/
structure Flight (ε V : Type) where
  number : Nat
  /-- The lookup whose turn it is to fetch. -/
  holder : Option Nat
  /-- The lookups that wait, in the order in which they came. -/
  queue : List Nat
  outcome : Option (Outcome ε V)

inductive Phase (ε V : Type) where
  /-- It waits for its turn or for the outcome of its flight. -/
  | waiting
  /-- It fetches a value that will be current up to the given time. -/
  | fetching (serial : Nat) (expiresAt : Seconds)
  | landed (outcome : Outcome ε V)

/-- A lookup that did not find a current entry. -/
structure Lookup (ε V : Type) where
  key : String
  /-- The entry that was cached when the lookup began. -/
  cached : Option (Entry V)
  flight : Nat
  phase : Phase ε V

structure Counters where
  hits : Nat := 0
  misses : Nat := 0
  stale : Nat := 0
  failures : Nat := 0
deriving DecidableEq, Repr

end Cache

open Cache in
/-- A cache of values whose fetches fail with an `ε`. -/
structure Cache (ε V : Type) where
  /-- The seconds for which a fetched value is current. -/
  lifetime : UInt64
  entries : SortedMap String (Entry V) := .empty
  /-- The flights that a lookup can join, by their keys. -/
  flights : SortedMap String (Flight ε V) := .empty
  lookups : SortedMap Nat (Lookup ε V) := .empty
  counters : Counters := {}
  nextFlight : Nat := 0
  nextLookup : Nat := 0
  nextFetch : Nat := 0

end ZoneCatalog
