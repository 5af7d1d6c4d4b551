/-! Intervals: points in time that come again and again, in milliseconds. -/
namespace ZoneCatalog

structure Interval where
  period : Nat
  due : Nat
deriving DecidableEq, Repr

namespace Interval

/-- How late an interval may be noticed without being put off. -/
def tolerance : Nat := 5

/-- The end of time for a machine that had been running for some seconds at the first point in time.
It counts its seconds with 63 bits. -/
def endOfTime (uptime : Nat) : Nat := (Nat.pow 2 63 - uptime) * 1000

def starting (period now : Nat) : Interval := ⟨period, now + period⟩

/-- An interval that is first due after one period, unless time ends before. -/
def starting? (ending period now : Nat) : Option Interval :=
  if now + period < ending then some (starting period now) else none

/-- The interval after it was noticed to be due. If that was late, the next time is a full period
from then. -/
def advance (i : Interval) (now : Nat) : Interval :=
  if i.due + tolerance < now then ⟨i.period, now + i.period⟩ else ⟨i.period, i.due + i.period⟩

end Interval
end ZoneCatalog
