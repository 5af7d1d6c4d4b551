import ZoneCatalog.Data.Decode
import ZoneCatalog.Json.Reader

/-! Typed values from JSON text. -/
namespace ZoneCatalog

inductive JsonError where
  | malformed
  | mismatch (cause : Datum.Mismatch)
deriving DecidableEq, Repr

def JsonError.message : JsonError → String
  | .malformed => "not a JSON text"
  | .mismatch cause => cause.message

/-- Reads a typed value off its JSON text. -/
def Json.decode {α : Type} (decode : Datum → Datum.Decoded α) (text : String) :
    Except JsonError α :=
  match Json.read? text.toList with
  | none => .error .malformed
  | some d => (decode d).mapError .mismatch

end ZoneCatalog
