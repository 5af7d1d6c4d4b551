import ZoneCatalog.Data.SortedMap
import ZoneCatalog.Name.Parser

/-! The index from names to the zones that contain them. Zones are kept by their reversed labels
in small letters, so that a zone comes before everything below it and a containing zone is an
initial part of the name looked up. -/
namespace ZoneCatalog

/-- Compared labels, the one nearest the root first. -/
abbrev ZonePath := List (List Char)

instance : LE ZonePath := List.instLE

def DomainName.path (name : DomainName) : ZonePath := name.folded.reverse

/-- An index of zones, each under the path of its name and as the text it was listed with. -/
structure ZoneIndex where
  zones : SortedMap ZonePath String

namespace ZoneIndex

def empty : ZoneIndex := ⟨.empty⟩

/-- Adds a zone. A text that is no name is left out and reported with the reason. -/
def add (index : ZoneIndex) (zone : String) : Except NameError ZoneIndex :=
  (DomainName.parse zone.toList).map fun name => ⟨index.zones.insert name.path zone⟩

/-- The index of the listed zones, and the texts left out of it, each with the reason. Of two
texts for one name the later stays. -/
def build (zones : List String) : ZoneIndex × List (String × NameError) :=
  zones.foldl (fun (index, refused) zone =>
    match index.add zone with
    | .ok index => (index, refused)
    | .error e => (index, refused ++ [(zone, e)])) (empty, [])

def ofList (zones : List String) : ZoneIndex := (build zones).1

/-- The zone with the longest path that starts the given one, trying at most `length` labels. -/
def longest (index : ZoneIndex) (path : ZonePath) : (length : Nat) → Option String
  | 0 => index.zones.get? []
  | length + 1 =>
    match index.zones.get? (path.take (length + 1)) with
    | some zone => some zone
    | none => index.longest path length

/-- The most specific zone that contains a name. -/
def findName (index : ZoneIndex) (name : DomainName) : Option String :=
  index.longest name.path name.path.length

/-- The most specific zone that contains the name a text denotes. -/
def find (index : ZoneIndex) (qname : String) : Option String :=
  match DomainName.parse qname.toList with
  | .ok name => index.findName name
  | .error _ => none

/-- The zones in the order of their paths, as they were listed. -/
def toList (index : ZoneIndex) : List String := index.zones.values

def size (index : ZoneIndex) : Nat := index.zones.size

def isEmpty (index : ZoneIndex) : Bool := index.zones.isEmpty

end ZoneIndex
end ZoneCatalog
