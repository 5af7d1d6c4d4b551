import ZoneCatalog.Settings.Basic

/-! Which settings can be used. -/
namespace ZoneCatalog

inductive SettingsError where
  | invalid (setting reason : String)
  | unreadable (reason : String)
  | malformed (reason : String)
deriving DecidableEq, Repr

def SettingsError.message : SettingsError → String
  | .invalid setting reason => "invalid configuration value for " ++ setting ++ ": " ++ reason
  | .unreadable reason => "io error: " ++ reason
  | .malformed reason => "toml decode error: " ++ reason

/-- Refuses the settings that nothing can be built from; of several faults the first in the order
of this list is reported. -/
def Settings.validate (s : Settings) : Except SettingsError Unit := do
  if s.zoneCapacity = 0 then throw (.invalid "zone_cache.capacity" "must be positive")
  if s.recordCapacity = 0 then throw (.invalid "record_cache.capacity" "must be positive")
  if s.zoneIdle = 0 then throw (.invalid "zone_cache.timeout" "must be positive")
  if s.reloadSeconds = 0 then throw (.invalid "zone_reload" "must be positive")
  if s.healthCheck.up ≤ s.healthCheck.down then
    throw (.invalid "health_check" "fully_down must be lower than fully_up")

end ZoneCatalog
