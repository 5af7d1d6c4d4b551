import ZoneCatalog.Simulation.Schedule

/-! Sessions: steps taken one after the other in a world, or several of them at once. -/
namespace ZoneCatalog

inductive SessionStep where
  | single (step : Step)
  | parallel (steps : List TimedStep)

/-- An answer. Zones and locations from the caches have numbers, in the order in which they were
first answered; a value that comes from the same fetch has the same number. -/
structure NumberedAnswer where
  answer : Answer
  number : Option Nat := none

namespace World

def ofSettings (s : Settings) (clock : Seconds) (readTimeout : Nat) (uptime : Nat := 86400) :
    Except CatalogError World := do
  let catalog ← Catalog.ofSettings s
  return { clock, uptime, store := { memory := { readTimeout } }, catalog }

/-- The number of an entry among those answered, the next number for a new one. -/
def numberOf {V : Type} (shown : List (Entry V)) (entry : Entry V) : Nat × List (Entry V) :=
  match shown.findIdx? (·.serial = entry.serial) with
  | some number => (number, shown)
  | none => (shown.length, shown ++ [entry])

def numberAnswer (w : World) : Answer → NumberedAnswer × World
  | .zone entry =>
    let (number, shown) := numberOf w.shownZones entry
    (⟨.zone entry, number⟩, { w with shownZones := shown })
  | .location entry =>
    let (number, shown) := numberOf w.shownLocations entry
    (⟨.location entry, number⟩, { w with shownLocations := shown })
  | answer => ({ answer }, w)

def numberAnswers (w : World) : List Answer → List NumberedAnswer × World
  | [] => ([], w)
  | answer :: rest =>
    let (answer, w) := w.numberAnswer answer
    let (rest, w) := w.numberAnswers rest
    (answer :: rest, w)

def timedSteps : SessionStep → List TimedStep
  | .single step => [{ step }]
  | .parallel steps => steps

def take (w : World) (s : SessionStep) : List NumberedAnswer × World :=
  let (answers, w) := w.takeAll (timedSteps s)
  w.numberAnswers answers

end World
end ZoneCatalog
