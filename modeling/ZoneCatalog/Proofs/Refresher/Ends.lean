import Mathlib.Logic.Function.Basic
import ZoneCatalog.Proofs.Refresher.Turn
import ZoneCatalog.Proofs.Store.Open

/-! The ends of a refresher. It comes to an end because it was told to, or because an interval
reaches past the end of time, and it closes its feed before: at its end it has none. -/
namespace ZoneCatalog

open Refresher (Occurrence)

/-- The intervals of a plan that begin at a time are due before time ends. -/
def RefresherPlan.InTime (plan : RefresherPlan) (ending now : Nat) : Prop :=
  now + plan.reloadEvery < ending ∧ now + plan.forceEvery < ending

namespace Refresher

variable {r : Refresher} {ending now : Nat} {o : Occurrence}

/-- What holds of a refresher at all times. -/
structure Sound (r : Refresher) (ending now : Nat) : Prop where
  feed : r.feed.isSome → r.phase = .idle ∨ r.phase = .reloading
  told : r.phase = .closing ∨ r.phase = .finished → r.stopping = true
  late : r.phase = .failed → ¬ r.plan.InTime ending now

theorem Sound.mono (sound : r.Sound ending now) {later : Nat} (onward : now ≤ later) :
    r.Sound ending later where
  feed := sound.feed
  told := sound.told
  late failed inTime := by
    refine sound.late failed ⟨?_, ?_⟩
    · exact Nat.lt_of_le_of_lt (Nat.add_le_add_right onward _) inTime.1
    · exact Nat.lt_of_le_of_lt (Nat.add_le_add_right onward _) inTime.2

theorem Sound.starting (plan : RefresherPlan) (ending now : Nat) :
    (starting plan).Sound ending now := by
  constructor <;> simp [Refresher.starting]

theorem Sound.of_awake (awake : r.phase = .idle ∨ r.phase = .reloading) : r.Sound ending now where
  feed _ := awake
  told h := by rcases awake with awake | awake <;> simp [awake] at h
  late h := by rcases awake with awake | awake <;> simp [awake] at h

/-- Only a refresher that waits for events or reads its zone set has a feed. -/
theorem Sound.feed_eq_none (sound : r.Sound ending now) (idle : r.phase ≠ .idle)
    (reloading : r.phase ≠ .reloading) : r.feed = none := by
  rw [← Option.not_isSome_iff_eq_none]
  exact fun holds => (sound.feed holds).elim idle reloading

theorem Sound.feed_of_isFinal (sound : r.Sound ending now) (final : r.phase.isFinal = true) :
    r.feed = none := by
  refine sound.feed_eq_none ?_ ?_
  · intro idle
    rw [idle] at final
    cases final
  · intro reloading
    rw [reloading] at final
    cases final

/-- The phase in which a refresher meets with an occurrence. -/
def Meets (r : Refresher) : Occurrence → Prop
  | .subscribed _ => r.phase = .subscribing ∨ r.phase = .resubscribing
  | .loaded _ => r.phase = .reloading
  | .stopped => r.phase = .idle ∧ r.stopping = true
  | .closed => r.phase = .closing
  | .event _ | .feedEnded | .reloadDue | .forcedDue => r.phase = .idle

theorem Meets.not_isFinal (meets : r.Meets o) : r.phase.isFinal = false := by
  cases o with
  | subscribed result => rcases meets with hp | hp <;> rw [hp] <;> rfl
  | stopped => rw [meets.1]; rfl
  | _ => rw [show r.phase = _ from meets]; rfl

theorem Sound.feed_of_subscribing (sound : r.Sound ending now)
    (hp : r.phase = .subscribing ∨ r.phase = .resubscribing) : r.feed = none := by
  rcases hp with hp | hp
  · exact sound.feed_eq_none (by simp [hp]) (by simp [hp])
  · exact sound.feed_eq_none (by simp [hp]) (by simp [hp])

/-- Neither the plan nor the order to stop is changed by what happens to a refresher. -/
theorem react_keeps (r : Refresher) (ending now : Nat) (o : Occurrence) :
    (r.react ending now o).refresher.plan = r.plan ∧
      (r.react ending now o).refresher.stopping = r.stopping := by
  cases o with
  | subscribed result =>
    simp only [react, begin]
    split
    · split <;> exact ⟨rfl, rfl⟩
    · exact ⟨rfl, rfl⟩
  | event e => cases e <;> exact ⟨rfl, rfl⟩
  | reloadDue =>
    simp only [react]
    split <;> exact ⟨rfl, rfl⟩
  | forcedDue =>
    simp only [react]
    split <;> exact ⟨rfl, rfl⟩
  | loaded result => cases result <;> exact ⟨rfl, rfl⟩
  | feedEnded | stopped | closed => exact ⟨rfl, rfl⟩

/-- A refresher begins with its feed, unless its plan reaches past the end of time. -/
theorem begin_cases (r : Refresher) (ending now : Nat) (feed : Option FeedId)
    (notices : List Notice) :
    (∃ reload forced notices', r.begin ending now feed notices =
      { refresher := { r with phase := .idle, feed, reload, forced }, notices := notices' }) ∨
    ¬ r.plan.InTime ending now ∧ r.begin ending now feed notices =
      { refresher := { r with phase := .failed }, notices, close := feed } := by
  rw [begin]
  split
  · exact .inl ⟨_, _, _, rfl⟩
  · rename_i late
    refine .inr ⟨?_, rfl⟩
    intro ⟨reload, forced⟩
    exact late _ _ (if_pos reload) (if_pos forced)

/-- What the answer to a subscription comes to. -/
theorem react_subscribed (ending now : Nat) {result : Except StoreError FeedId}
    (hp : r.phase = .subscribing ∨ r.phase = .resubscribing) :
    ∃ c, r.react ending now (.subscribed result) = c ∧
      (c.refresher.phase = .idle ∧ c.refresher.feed = (feedOf r.plan.zoneSet result).1 ∨
        ¬ r.plan.InTime ending now ∧ c.refresher = { r with phase := .failed } ∧
          c.close = (feedOf r.plan.zoneSet result).1) := by
  refine ⟨_, rfl, ?_⟩
  rcases hp with hp | hp
  · simp only [react, hp]
    rcases r.begin_cases ending now (feedOf r.plan.zoneSet result).1
        (feedOf r.plan.zoneSet result).2 with
      ⟨reload, forced, notices, begun⟩ | ⟨late, begun⟩
    · rw [begun]
      exact .inl ⟨rfl, rfl⟩
    · rw [begun]
      exact .inr ⟨late, rfl, rfl⟩
  · simp [react, hp]

/-- Whatever a refresher meets with leaves it sound. -/
theorem Sound.react (sound : r.Sound ending now) (meets : r.Meets o) :
    (r.react ending now o).refresher.Sound ending now := by
  cases o with
  | subscribed result =>
    obtain ⟨c, hc, ⟨idle, -⟩ | ⟨late, failed, -⟩⟩ := react_subscribed ending now meets
    · rw [hc]
      exact .of_awake (.inl idle)
    · rw [hc, failed]
      refine ⟨?_, by simp, fun _ => late⟩
      simp [sound.feed_of_subscribing meets]
  | event e => cases e <;> exact .of_awake (.inl meets)
  | feedEnded => exact .of_awake (.inl meets)
  | reloadDue =>
    simp only [Refresher.react]
    split
    · exact .of_awake (.inr rfl)
    · exact .of_awake (.inl meets)
  | forcedDue =>
    simp only [Refresher.react]
    split
    · rename_i unfed
      exact ⟨by simp [Option.isNone_iff_eq_none.1 unfed], by simp, by simp⟩
    · exact .of_awake (.inl meets)
  | loaded result => cases result <;> exact .of_awake (.inl rfl)
  | stopped =>
    constructor
    · simp [Refresher.react]
    · exact fun _ => meets.2
    · simp [Refresher.react]
  | closed =>
    have closing : r.phase = .closing := meets
    have shut := sound.feed_eq_none (by simp [closing]) (by simp [closing])
    constructor
    · simp [Refresher.react, shut]
    · exact fun _ => sound.told (.inl closing)
    · simp [Refresher.react]

/-- A feed that a refresher has, or is given, it still has after or has closed. -/
theorem Sound.react_feed (sound : r.Sound ending now) (meets : r.Meets o) (feed : FeedId)
    (holds : r.feed = some feed ∨ o = .subscribed (.ok feed)) :
    (r.react ending now o).refresher.feed = some feed ∨
      (r.react ending now o).close = some feed := by
  rcases holds with had | rfl
  · cases o with
    | subscribed result => simp [sound.feed_of_subscribing meets] at had
    | event e => cases e <;> exact .inl had
    | feedEnded => exact .inr had
    | reloadDue =>
      simp only [Refresher.react]
      split <;> exact .inl had
    | forcedDue =>
      simp only [Refresher.react]
      split <;> exact .inl had
    | loaded result => cases result <;> exact .inl had
    | stopped => exact .inr had
    | closed => exact .inl had
  · obtain ⟨c, hc, ⟨-, got⟩ | ⟨-, -, close⟩⟩ := react_subscribed ending now meets
    · rw [hc]
      exact .inl got
    · rw [hc]
      exact .inr close

end Refresher
end ZoneCatalog
