import ZoneCatalog.Record.Basic
import ZoneCatalog.Settings.Basic

/-! Which addresses of a set are healthy enough to answer with. -/
namespace ZoneCatalog

/-- A source of health: the status of an address in the service of an owner name, if it has been
checked. -/
abbrev HealthStatus := (owner : String) → IpAddress → Option Int32

def isHealthy (owner : String) (health : HealthStatus) (bounds : HealthBounds)
    (r : IpRecord) : Bool :=
  match health owner r.ip with
  | some status => bounds.down < status
  | none => false

/-- The records to answer with. Without a health check these are all; with one, those that are
healthy, or again all if none is. -/
def IpSet.healthy (owner : String) (s : IpSet) (health : HealthStatus)
    (bounds : HealthBounds) : List IpRecord :=
  if s.healthCheck.enable then
    match s.records.filter (isHealthy owner health bounds) with
    | [] => s.records
    | healthy => healthy
  else s.records

end ZoneCatalog
