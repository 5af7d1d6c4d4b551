import Mathlib.Data.List.Basic
import ZoneCatalog.Health.Filter

/-! Which addresses are withheld. Only addresses that are known to be up are answered, but if no
address is up all are; so the answer for one address can hang on the status of another. What stays
monotone is shown by the two sides of this boundary. -/
namespace ZoneCatalog

variable {owner : String} {health health' : HealthStatus} {bounds bounds' : HealthBounds}
  {s : IpSet} {r : IpRecord} {ip : IpAddress}

/-- The status of an address is known, and above the one at which it is down. -/
def IsUp (owner : String) (health : HealthStatus) (bounds : HealthBounds) (ip : IpAddress) : Prop :=
  ∃ status, health owner ip = some status ∧ bounds.down < status

theorem isHealthy_iff : isHealthy owner health bounds r = true ↔ IsUp owner health bounds r.ip := by
  rw [isHealthy, IsUp]
  cases health owner r.ip with
  | none => simp
  | some status => simp

instance (owner : String) (health : HealthStatus) (bounds : HealthBounds) (ip : IpAddress) :
    Decidable (IsUp owner health bounds ip) :=
  decidable_of_iff _ (isHealthy_iff (r := { ip }))

/-- A lower bound leaves up what is up. -/
theorem IsUp.mono (raised : bounds.down ≤ bounds'.down) (up : IsUp owner health bounds' ip) :
    IsUp owner health bounds ip := by
  obtain ⟨status, known, above⟩ := up
  exact ⟨status, known, Int32.lt_of_le_of_lt raised above⟩

/-- The records whose addresses are up. -/
def IpSet.up (owner : String) (s : IpSet) (health : HealthStatus) (bounds : HealthBounds) :
    List IpRecord :=
  s.records.filter fun r => IsUp owner health bounds r.ip

namespace IpSet

theorem mem_up : r ∈ s.up owner health bounds ↔ r ∈ s.records ∧ IsUp owner health bounds r.ip := by
  rw [up, List.mem_filter, decide_eq_true_iff]

theorem up_eq_nil_iff :
    s.up owner health bounds = [] ↔ ∀ r ∈ s.records, ¬ IsUp owner health bounds r.ip := by
  simp [up]

/-- With a health check the answer is what is up, or everything if nothing is. -/
theorem healthy_eq (enabled : s.healthCheck.enable = true) : s.healthy owner health bounds =
    if s.up owner health bounds = [] then s.records else s.up owner health bounds := by
  have same : s.records.filter (isHealthy owner health bounds) = s.up owner health bounds := by
    apply List.filter_congr
    intro r _
    rw [Bool.eq_iff_iff, isHealthy_iff, decide_eq_true_iff]
  rw [healthy, if_pos enabled, same]
  cases s.up owner health bounds with
  | nil => simp
  | cons r rest => simp

theorem healthy_of_up (enabled : s.healthCheck.enable = true)
    (up : ∃ r ∈ s.records, IsUp owner health bounds r.ip) :
    s.healthy owner health bounds = s.up owner health bounds := by
  rw [healthy_eq enabled, if_neg]
  intro nothing
  obtain ⟨r, mem, up⟩ := up
  exact up_eq_nil_iff.1 nothing r mem up

theorem healthy_of_down (enabled : s.healthCheck.enable = true)
    (down : ∀ r ∈ s.records, ¬ IsUp owner health bounds r.ip) :
    s.healthy owner health bounds = s.records := by
  rw [healthy_eq enabled, if_pos (up_eq_nil_iff.2 down)]

/-- The boundary: where nothing is up, everything is answered. -/
theorem up_or_down (owner : String) (health : HealthStatus) (bounds : HealthBounds) (s : IpSet) :
    (∃ r ∈ s.records, IsUp owner health bounds r.ip) ∨
      ∀ r ∈ s.records, ¬ IsUp owner health bounds r.ip := by
  by_cases up : ∃ r ∈ s.records, IsUp owner health bounds r.ip
  · exact .inl up
  · right
    intro r mem above
    exact up ⟨r, mem, above⟩

/-- A record is answered if it is up or no record is. -/
theorem mem_healthy (enabled : s.healthCheck.enable = true) : r ∈ s.healthy owner health bounds ↔
    r ∈ s.records ∧
      (IsUp owner health bounds r.ip ∨ ∀ t ∈ s.records, ¬ IsUp owner health bounds t.ip) := by
  rcases up_or_down owner health bounds s with up | down
  · have not_down : ¬ ∀ t ∈ s.records, ¬ IsUp owner health bounds t.ip := by
      intro down
      obtain ⟨t, mem, above⟩ := up
      exact down t mem above
    rw [healthy_of_up enabled up, mem_up, or_iff_left not_down]
  · rw [healthy_of_down enabled down]
    exact (and_iff_left (.inr down)).symm

theorem healthy_sublist (enabled : s.healthCheck.enable = true) :
    (s.healthy owner health bounds).Sublist s.records := by
  rw [healthy_eq enabled]
  split
  · exact List.Sublist.refl _
  · exact List.filter_sublist

theorem healthy_eq_nil_iff (enabled : s.healthCheck.enable = true) :
    s.healthy owner health bounds = [] ↔ s.records = [] := by
  constructor
  · intro nothing
    rcases up_or_down owner health bounds s with up | down
    · rw [healthy_of_up enabled up, up_eq_nil_iff] at nothing
      obtain ⟨r, mem, above⟩ := up
      exact absurd above (nothing r mem)
    · rwa [healthy_of_down enabled down] at nothing
  · intro nothing
    have sub : (s.healthy owner health bounds).Sublist s.records := healthy_sublist enabled
    rw [nothing] at sub
    exact List.sublist_nil.1 sub

end IpSet

/-- The second source knows a status of an address that is no lower than in the first, or knows one
where the first knows none. Of all other addresses it says the same. -/
structure RaisedAt (owner : String) (ip : IpAddress) (health health' : HealthStatus) : Prop where
  raised : ∀ status, health owner ip = some status →
    ∃ status', health' owner ip = some status' ∧ status ≤ status'
  others : ∀ other, other ≠ ip → health' owner other = health owner other

theorem RaisedAt.isUp (raised : RaisedAt owner ip health health')
    (up : IsUp owner health bounds ip) : IsUp owner health' bounds ip := by
  obtain ⟨status, known, above⟩ := up
  obtain ⟨status', known', higher⟩ := raised.raised status known
  exact ⟨status', known', Int32.lt_of_lt_of_le above higher⟩

theorem RaisedAt.isUp_other (raised : RaisedAt owner ip health health') {other : IpAddress}
    (apart : other ≠ ip) : IsUp owner health' bounds other ↔ IsUp owner health bounds other := by
  rw [IsUp, IsUp, raised.others other apart]

namespace IpSet

/-- An address is not lost by its own recovery. If it was answered for want of a better one, it is
either up itself now or still as good as the others, of which nothing has changed. -/
theorem mem_healthy_of_raised (enabled : s.healthCheck.enable = true)
    (raised : RaisedAt owner r.ip health health') (answered : r ∈ s.healthy owner health bounds) :
    r ∈ s.healthy owner health' bounds := by
  obtain ⟨mem, why⟩ := (mem_healthy enabled).1 answered
  rw [mem_healthy enabled]
  refine ⟨mem, ?_⟩
  rcases why with up | down
  · exact .inl (raised.isUp up)
  · by_cases now : IsUp owner health' bounds r.ip
    · exact .inl now
    · right
      intro t ht up
      by_cases same : t.ip = r.ip
      · exact now (same ▸ up)
      · exact down t ht ((raised.isUp_other same).1 up)

/-- A higher bound takes records away, unless it takes away the last that are up. -/
theorem healthy_of_raised_bound (enabled : s.healthCheck.enable = true)
    (raised : bounds.down ≤ bounds'.down) :
    (s.healthy owner health bounds').Sublist (s.healthy owner health bounds) ∨
      (∃ r ∈ s.records, IsUp owner health bounds r.ip) ∧
        (∀ r ∈ s.records, ¬ IsUp owner health bounds' r.ip) ∧
          s.healthy owner health bounds' = s.records := by
  rcases up_or_down owner health bounds s with up | down
  · rcases up_or_down owner health bounds' s with up' | down'
    · left
      rw [healthy_of_up enabled up, healthy_of_up enabled up']
      apply List.monotone_filter_right
      intro r above
      exact decide_eq_true ((of_decide_eq_true above : IsUp owner health bounds' r.ip).mono raised)
    · exact .inr ⟨up, down', healthy_of_down enabled down'⟩
  · left
    rw [healthy_of_down enabled down]
    exact healthy_sublist enabled

/-- With a health check the answer is a sublist of the records in their order, empty only if there
are none: those whose status is above the bound if there is such a record, and otherwise all. So an
address is not lost when its status is raised or becomes known and all others stay, and raising the
bound adds no record, unless nothing is up any more and the answer falls back to the whole set. -/
theorem healthy_fails_open (owner : String) (health : HealthStatus) (bounds : HealthBounds)
    (s : IpSet) (enabled : s.healthCheck.enable = true) :
    (s.healthy owner health bounds).Sublist s.records ∧
    (s.healthy owner health bounds = [] ↔ s.records = []) ∧
    ((∃ r ∈ s.records, IsUp owner health bounds r.ip) → s.healthy owner health bounds =
      s.records.filter fun r => IsUp owner health bounds r.ip) ∧
    ((∀ r ∈ s.records, ¬ IsUp owner health bounds r.ip) →
      s.healthy owner health bounds = s.records) ∧
    (∀ ip health', RaisedAt owner ip health health' →
      ∀ r ∈ s.healthy owner health bounds, r.ip = ip → r ∈ s.healthy owner health' bounds) ∧
    (∀ bounds' : HealthBounds, bounds.down ≤ bounds'.down →
      (s.healthy owner health bounds').Sublist (s.healthy owner health bounds) ∨
        (∃ r ∈ s.records, IsUp owner health bounds r.ip) ∧
          (∀ r ∈ s.records, ¬ IsUp owner health bounds' r.ip) ∧
            s.healthy owner health bounds' = s.records) := by
  refine ⟨healthy_sublist enabled, healthy_eq_nil_iff enabled, healthy_of_up enabled,
    healthy_of_down enabled, ?_, fun bounds' => healthy_of_raised_bound enabled⟩
  rintro ip health' raised r answered rfl
  exact mem_healthy_of_raised enabled raised answered

/-- Two addresses with a health check. -/
def mirrored : IpSet where
  records := [{ ip := .v4 ⟨192, 0, 2, 1⟩ }, { ip := .v4 ⟨192, 0, 2, 2⟩ }]
  healthCheck := { enable := true }

/-- A source that has checked one address. -/
def statusOf (ip : IpAddress) (status : Int32) : HealthStatus :=
  fun _ other => if other = ip then some status else none

/-- While nothing is known both addresses are answered. The second stays as it becomes known to be
up, alone; a bound as high as its status brings the first one back. -/
theorem healthy_fails_open_mirrored : mirrored.healthCheck.enable = true ∧
    RaisedAt "www." (.v4 ⟨192, 0, 2, 2⟩) (fun _ _ => none) (statusOf (.v4 ⟨192, 0, 2, 2⟩) 5) ∧
    { ip := .v4 ⟨192, 0, 2, 2⟩ } ∈ mirrored.healthy "www." (fun _ _ => none) {} ∧
    { ip := .v4 ⟨192, 0, 2, 2⟩ } ∈
      mirrored.healthy "www." (statusOf (.v4 ⟨192, 0, 2, 2⟩) 5) {} ∧
    (∃ r ∈ mirrored.records, IsUp "www." (statusOf (.v4 ⟨192, 0, 2, 2⟩) 5) {} r.ip) ∧
    mirrored.healthy "www." (statusOf (.v4 ⟨192, 0, 2, 2⟩) 5) {} =
      [{ ip := .v4 ⟨192, 0, 2, 2⟩ }] ∧
    ({} : HealthBounds).down ≤ ({ fullyDown := some 5 } : HealthBounds).down ∧
    mirrored.healthy "www." (statusOf (.v4 ⟨192, 0, 2, 2⟩) 5) { fullyDown := some 5 } =
      mirrored.records := by
  have raised : RaisedAt "www." (.v4 ⟨192, 0, 2, 2⟩) (fun _ _ => none)
      (statusOf (.v4 ⟨192, 0, 2, 2⟩) 5) := ⟨nofun, fun other apart => if_neg apart⟩
  have answered : { ip := .v4 ⟨192, 0, 2, 2⟩ } ∈ mirrored.healthy "www." (fun _ _ => none) {} := by
    decide
  have up : ∃ r ∈ mirrored.records,
      IsUp "www." (statusOf (.v4 ⟨192, 0, 2, 2⟩) 5) {} r.ip := by decide
  have higher : ({} : HealthBounds).down ≤ ({ fullyDown := some 5 } : HealthBounds).down := by
    decide
  obtain ⟨-, -, -, -, stays, -⟩ :=
    healthy_fails_open "www." (fun _ _ => none) {} mirrored rfl
  obtain ⟨-, -, only, -, -, bound⟩ :=
    healthy_fails_open "www." (statusOf (.v4 ⟨192, 0, 2, 2⟩) 5) {} mirrored rfl
  refine ⟨rfl, raised, answered, stays _ _ raised _ answered rfl, up, only up, higher, ?_⟩
  rcases bound _ higher with fewer | ⟨-, -, whole⟩
  · exact absurd fewer (by decide)
  · exact whole

end IpSet
end ZoneCatalog
