import ZoneCatalog.Name.Printer
import ZoneCatalog.Store.Error

/-! Why a zone or a location could not be loaded. -/
namespace ZoneCatalog

inductive LoadError where
  | undecodable (key : String)
  | missing (owner : String)
  | name (text : String) (cause : NameError)
  | store (cause : StoreError)
deriving DecidableEq

namespace LoadError

def message : LoadError → String
  | .undecodable key => "failed to decode value at " ++ key ++ ": not in the stored form"
  | .missing owner => "no data stored for " ++ owner
  | .name text cause => "invalid name " ++ text ++ ": " ++ cause.message
  | .store cause => "store error: " ++ cause.message

/-- Whether the store is to blame, and not what it holds. -/
def isTransient : LoadError → Bool
  | .store _ => true
  | _ => false

end LoadError
end ZoneCatalog
