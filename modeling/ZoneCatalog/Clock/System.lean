import Std.Time.DateTime.Timestamp
import ZoneCatalog.Clock.Basic

/-! The clock of the machine. Everything else in the library is given the time it works with. -/
namespace ZoneCatalog

/-- The present, or the start of 1970 if the machine is set before it. -/
def Seconds.now : IO Seconds := do
  let t ← Std.Time.Timestamp.now
  return UInt64.ofNat t.toSecondsSinceUnixEpoch.toInt.toNat

end ZoneCatalog
