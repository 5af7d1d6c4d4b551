import ZoneCatalog.Text.Duration

/-! Failures of the store. -/
namespace ZoneCatalog

/-- Why the store did not do what it was asked. -/
inductive StoreError where
  /-- It did not answer within so many milliseconds. -/
  | timeout (millis : Nat)
  | unavailable (reason : String)
  | feedClosed
  | io (reason : String)
deriving DecidableEq, Repr

def StoreError.message : StoreError → String
  | .timeout millis => "store request timed out after " ++ Text.duration millis
  | .unavailable reason => "store unavailable: " ++ reason
  | .feedClosed => "change notification feed closed"
  | .io reason => "io error: " ++ reason

/-- Whether the request was given up because it took too long. -/
def StoreError.isTimeout : StoreError → Bool
  | .timeout _ => true
  | _ => false

end ZoneCatalog
