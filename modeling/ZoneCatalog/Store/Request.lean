import ZoneCatalog.Store.Error

/-! What is asked of a store, and what a store tells of changes. -/
namespace ZoneCatalog

inductive StoreEvent where
  /-- The feed is up; changes made before may have gone unnoticed. -/
  | connected
  /-- Something was written or deleted at a key. -/
  | changed (key : String)
  | failed (cause : StoreError)
deriving DecidableEq, Repr

/-- The number of a change feed. Feeds that are filled by hand are numbered apart from the feeds
that a store fills. -/
inductive FeedId where
  | live (number : Nat)
  | manual (number : Nat)
deriving DecidableEq, Repr

def FeedId.isManual : FeedId → Bool
  | live _ => false
  | manual _ => true

inductive StoreRequest where
  | members (key : String)
  | fieldNames (key : String)
  | get (key : String)
  | field (key name : String)
  | setField (key name value : String)
  /-- A feed of the changes to the keys that match a pattern. -/
  | subscribe (pattern : String)
deriving DecidableEq, Repr

namespace StoreRequest

/-- What answers a request. A set or a hash that is not there answers as an empty one. -/
def Reply : StoreRequest → Type
  | members _ => List String
  | fieldNames _ => List String
  | get _ => Option String
  | field _ _ => Option String
  | setField _ _ _ => Unit
  | subscribe _ => FeedId

abbrev Result (r : StoreRequest) : Type := Except StoreError r.Reply

/-- Whether the store has to answer within its timeout. A subscription may take as long as it
takes. -/
def isTimed : StoreRequest → Bool
  | subscribe _ => false
  | _ => true

end StoreRequest
end ZoneCatalog
