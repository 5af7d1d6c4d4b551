import ZoneCatalog.Record.Json
import ZoneCatalog.Store.Keys
import ZoneCatalog.Store.Program

/-! The locations of a zone. A location is asked for by its label, by its whole name or, at the
apex, by the name of the zone, and stored under its label. -/
namespace ZoneCatalog

def trimDots (cs : List Char) : List Char := (cs.reverse.dropWhile (· = '.')).reverse

/-- The label under which a location is stored in a zone. Of a name that ends in the name of the
zone, letters compared without their case, the part before the zone is left; any other text stands
for itself. -/
def relativeLabel (location zone : String) : String :=
  let location := trimDots location.toList
  let zone := trimDots zone.toList
  if location = [] ∨ location = apexLabel.toList ∨ Text.sameFolded location zone then apexLabel
  else
    let headSize := location.length - (zone.length + 1)
    let ending := location.drop headSize
    if zone.length < location.length ∧ Text.sameFolded ending ('.' :: zone) then
      String.ofList (location.take headSize)
    else String.ofList location

/-- The whole name of the location with a label. -/
def ownerName (label zone : String) : String :=
  if label = apexLabel then zone else label ++ "." ++ zone

/-- A location as it is served: the record sets at a name. -/
structure Location where
  name : String
  records : RecordSets
deriving DecidableEq

namespace Location

/-- The location of a stored text. Where nothing is stored there is no location, except at the
apex, where there are no records then. -/
def ofStored (keys : StoreKeys) (label zone : String) : Option String → Except LoadError Location
  | stored =>
    let owner := ownerName label zone
    match stored.filter (· ≠ "") with
    | some text =>
      match RecordSets.ofJson text with
      | .ok records => .ok ⟨owner, records⟩
      | .error _ => .error (.undecodable (keys.zone zone ++ "/" ++ label))
    | none => if label = apexLabel then .ok ⟨owner, {}⟩ else .error (.missing owner)

def load (keys : StoreKeys) (label zone : String) : Fallible LoadError Location := do
  let stored : Option String ← Fallible.request .store (.field (keys.zone zone) label)
  Fallible.ofExcept (ofStored keys label zone stored)

def save (keys : StoreKeys) (location zone : String) (records : RecordSets) :
    Fallible LoadError Unit :=
  Fallible.request .store
    (.setField (keys.zone zone) (relativeLabel location zone) records.toJson)

end Location
end ZoneCatalog
