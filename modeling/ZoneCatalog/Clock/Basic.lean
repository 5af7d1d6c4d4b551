/-! Time in seconds since the start of 1970, as far as 64 bits count it. -/
namespace ZoneCatalog

/-- A point in time, in whole seconds. -/
abbrev Seconds := UInt64

namespace Seconds

/-- The point `n` seconds later, or the last one there is. -/
def later (t : Seconds) (n : UInt64) : Seconds :=
  if t.toNat + n.toNat < UInt64.size then t + n else UInt64.ofNat (UInt64.size - 1)

def earlier (t : Seconds) (n : UInt64) : Seconds := if n ≤ t then t - n else 0

theorem toNat_later (t : Seconds) (n : UInt64) :
    (t.later n).toNat = min (t.toNat + n.toNat) (UInt64.size - 1) := by
  unfold later
  split
  · rename_i h
    have := UInt64.toNat_add t n
    simp only [UInt64.size] at h ⊢
    omega
  · rename_i h
    rw [UInt64.toNat_ofNat_of_lt' (by simp [UInt64.size])]
    simp only [UInt64.size] at h ⊢
    omega

theorem toNat_earlier (t : Seconds) (n : UInt64) :
    (t.earlier n).toNat = t.toNat - n.toNat := by
  rw [earlier]
  split
  · exact UInt64.toNat_sub_of_le _ _ ‹n ≤ t›
  · rename_i h
    rw [UInt64.le_iff_toNat_le] at h
    rw [UInt64.toNat_zero]
    omega

@[simp] theorem later_zero (t : Seconds) : t.later 0 = t := by
  have := t.toNat_lt
  rw [← UInt64.toNat_inj, toNat_later, UInt64.toNat_zero]
  simp only [UInt64.size]
  omega

/-- Of two points the later one also leads to the later end of a span. -/
theorem later_le_later {s t : Seconds} (h : s ≤ t) (n : UInt64) : s.later n ≤ t.later n := by
  rw [UInt64.le_iff_toNat_le] at h ⊢
  rw [toNat_later, toNat_later]
  omega

theorem le_later (t : Seconds) (n : UInt64) : t ≤ t.later n := by
  rw [UInt64.le_iff_toNat_le, toNat_later]
  have := t.toNat_lt
  simp only [UInt64.size]
  omega

theorem earlier_le (t : Seconds) (n : UInt64) : t.earlier n ≤ t := by
  rw [earlier]
  split
  · exact UInt64.sub_le ‹n ≤ t›
  · exact UInt64.zero_le

/-- A longer span does not end before a shorter one. -/
theorem later_mono (t : Seconds) {m n : UInt64} (h : m ≤ n) : t.later m ≤ t.later n := by
  rw [UInt64.le_iff_toNat_le] at h ⊢
  rw [toNat_later, toNat_later]
  omega

/-- A point after the end of a span lies further off than the span is long: the last point there is
has no point after it. -/
theorem add_lt_of_later_lt {s t : Seconds} {n : UInt64} (h : s.later n < t) :
    s.toNat + n.toNat < t.toNat := by
  rw [UInt64.lt_iff_toNat_lt, toNat_later] at h
  have := t.toNat_lt
  simp only [UInt64.size] at h
  omega

/-- The low 32 bits, the form in which serial numbers and signatures hold a time. -/
def serial (t : Seconds) : UInt32 := t.toUInt32

theorem toNat_serial (t : Seconds) : t.serial.toNat = t.toNat % UInt32.size :=
  UInt64.toNat_toUInt32 t

end Seconds
end ZoneCatalog
