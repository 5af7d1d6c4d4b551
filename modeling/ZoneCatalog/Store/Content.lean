import ZoneCatalog.Data.SortedMap

/-! The data of a store in memory: strings, sets and hashes, each kind under keys of its own. -/
namespace ZoneCatalog

abbrev TextSet := SortedMap String Unit

structure Content where
  strings : SortedMap String String := .empty
  sets : SortedMap String TextSet := .empty
  hashes : SortedMap String (SortedMap String String) := .empty

namespace Content

def members (c : Content) (key : String) : List String := ((c.sets.get? key).getD .empty).keys

def hash (c : Content) (key : String) : SortedMap String String :=
  (c.hashes.get? key).getD .empty

def fieldNames (c : Content) (key : String) : List String := (c.hash key).keys

def field? (c : Content) (key name : String) : Option String := (c.hash key).get? name

/-- Whether anything is stored at a key. A set whose last member was removed still is. -/
def holds (c : Content) (key : String) : Bool :=
  c.strings.contains key || c.sets.contains key || c.hashes.contains key

def hasMember (c : Content) (key member : String) : Bool :=
  ((c.sets.get? key).getD .empty).contains member

def setString (c : Content) (key value : String) : Content :=
  { c with strings := c.strings.insert key value }

def setField (c : Content) (key name value : String) : Content :=
  { c with hashes := c.hashes.insert key ((c.hash key).insert name value) }

def addMember (c : Content) (key member : String) : Content :=
  { c with sets := c.sets.insert key (((c.sets.get? key).getD .empty).insert member ()) }

def removeMember (c : Content) (key member : String) : Content :=
  match c.sets.get? key with
  | some set => { c with sets := c.sets.insert key (set.erase member) }
  | none => c

def delete (c : Content) (key : String) : Content where
  strings := c.strings.erase key
  sets := c.sets.erase key
  hashes := c.hashes.erase key

end Content
end ZoneCatalog
