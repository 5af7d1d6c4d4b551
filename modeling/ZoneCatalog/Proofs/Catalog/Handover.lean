import ZoneCatalog.Proofs.Catalog.Crew
import ZoneCatalog.Proofs.Catalog.Scene

/-! Starts and shutdowns of a catalog that pass each other. Whatever their order, each refresher
that loses its place is awaited by the call that took the place from it. -/
namespace ZoneCatalog

open Refresher (Occurrence)

/-- The end of a refresher is what is waited for. -/
def Standing.Awaits (s : Standing) (n : Nat) : Prop := ∃ answer, s = .waiting (.stopping n answer)

@[simp] theorem Standing.awaits_answered (answer : Answer) :
    (Standing.answered answer).Awaits = fun _ => False := by
  simp [funext_iff, Standing.Awaits]

@[simp] theorem Standing.awaits_starting (work : Suspended (Except StoreError (List String))) :
    (Standing.waiting (.starting work)).Awaits = fun _ => False := by
  simp [funext_iff, Standing.Awaits]

@[simp] theorem Standing.awaits_stopping (n : Nat) (answer : Answer) :
    (Standing.waiting (.stopping n answer)).Awaits = (· = n) := by
  simp [funext_iff, Standing.Awaits, eq_comm]

/-- What a call that starts or stops the catalog can wait for. -/
def Activity.Minds : Activity → Prop
  | .starting work => ∃ key pending, work = ⟨.members key, pending, .done⟩
  | .stopping .. => True
  | _ => False

def Standing.Minds : Standing → Prop
  | .answered _ => True
  | .waiting activity => activity.Minds

namespace World

variable {w v : World} {n : Nat} {claimed waited : Nat → Prop} {opened : Nat → FeedId → Prop}

/-- A refresher of the catalog has come to its end, and all feeds that were opened for it are
closed. -/
def Ended (opened : Nat → FeedId → Prop) (w : World) (n : Nat) : Prop :=
  (∃ k, w.workers[n]? = some k ∧ k.refresher.phase.isFinal = true) ∧
    ∀ feed, opened n feed → ¬ w.store.IsOpen feed

/-- A call has moved on behalf of the catalog. Each refresher that it waited for, or that lost its
place by it, is waited for or has come to its end. -/
structure Hands (claimed waited : Nat → Prop) (opened : Nat → FeedId → Prop) (w : World)
    (r : Standing × World) : Prop where
  minds : r.1.Minds
  manned : r.2.Manned (fun n => claimed n ∨ r.1.Awaits n) opened
  ends : ∀ n, waited n ∨ w.catalog.refresher = some n ∧ r.2.catalog.refresher ≠ some n →
    r.1.Awaits n ∨ (∃ answer, r.1 = .answered answer) ∧ r.2.Ended opened n

theorem around_report (w : World) (notices : List Notice) : w.Around (w.report notices) :=
  ⟨rfl, rfl, Nat.le_refl _, rfl, .refl _, rfl⟩

theorem Manned.ended (manned : w.Manned claimed opened) {k : Worker} (hk : w.crew n = some k)
    (final : k.refresher.phase.isFinal = true) : w.Ended opened n := by
  obtain ⟨k₀, known, ours, rfl⟩ := crew_eq_some.1 hk
  refine ⟨⟨k₀, known, final⟩, fun feed here isOpen => ?_⟩
  obtain ⟨j, hj, has⟩ := (manned.held n feed here).2 isOpen
  cases hj.symm.trans hk
  cases ((manned.follows n _ hk).sound.feed_of_isFinal final).symm.trans has

theorem awaitEnd_hands (manned : w.Manned (fun m => claimed m ∨ m = n) opened)
    (answer : Answer) : w.Hands claimed (· = n) opened (w.awaitEnd n answer) := by
  obtain ⟨k, hk⟩ := Option.isSome_iff_exists.1 (manned.known n (.inr rfl))
  obtain ⟨k₀, known, ours, rfl⟩ := crew_eq_some.1 hk
  have finished : w.isFinished n = k₀.refresher.phase.isFinal := by simp [isFinished, known]
  rw [awaitEnd, finished]
  split
  · rename_i final
    have reported := manned.around (w.around_report (w.endNotices n))
    refine ⟨trivial, reported.awaits ?_ ?_, ?_⟩
    · intro m waits
      exact manned.known m (.inl (waits.resolve_right (by simp [Standing.Awaits])))
    · intro m j waits hj alive
      refine .inl (waits.resolve_right ?_)
      rintro rfl
      cases hj.symm.trans hk
      simp [final] at alive
    · intro m waits
      rcases waits with rfl | ⟨place, lost⟩
      · exact .inr ⟨⟨answer, rfl⟩, reported.ended hk final⟩
      · exact absurd place lost
  · refine ⟨trivial, manned.awaits ?_ ?_, ?_⟩
    · intro m waits
      refine manned.known m (waits.imp_right ?_)
      rintro ⟨_, same⟩
      cases same
      rfl
    · intro m j waits _ _
      refine waits.imp_right ?_
      rintro rfl
      exact ⟨answer, rfl⟩
    · intro m waits
      rcases waits with rfl | ⟨place, lost⟩
      · exact .inl ⟨answer, rfl⟩
      · exact absurd place lost

/-- A call that has done something else first. -/
theorem Hands.after (around : w.Around v) {r : Standing × World}
    (hands : v.Hands claimed waited opened r) : w.Hands claimed waited opened r where
  minds := hands.minds
  manned := hands.manned
  ends n waits := hands.ends n (around.refresher ▸ waits)

/-- A call that has nothing to do with refreshers. -/
theorem hands_around (manned : w.Manned claimed opened) (around : w.Around v)
    {standing : Standing} (minds : standing.Minds) (free : standing.Awaits = fun _ => False) :
    w.Hands claimed (fun _ => False) opened (standing, v) where
  minds := minds
  manned := by simpa [free] using manned.around around
  ends n waits := by simp [around.refresher] at waits

/-- The refresher that a call takes the place of, or takes out of its place, is told to stop, and
awaited. -/
theorem retire_hands {previous : Nat} (place : w.catalog.refresher = some previous)
    (manned : v.Manned (fun n => claimed n ∨ w.catalog.refresher = some n) opened)
    (lost : v.catalog.refresher ≠ some previous) (answer : Answer) :
    w.Hands claimed (fun _ => False) opened ((v.stop previous).awaitEnd previous answer) := by
  simp only [place, Option.some.injEq, eq_comm (a := previous)] at manned
  obtain ⟨k, hk⟩ := Option.isSome_iff_exists.1 (manned.known previous (.inr rfl))
  have hands := awaitEnd_hands (manned.stop hk lost) answer
  refine ⟨hands.minds, hands.manned, fun n waits => hands.ends n (.inl ?_)⟩
  simpa [place, eq_comm] using waits.resolve_left id |>.1

theorem enrol_hands (manned : w.Manned claimed opened) (answer : Answer) :
    w.Hands claimed (fun _ => False) opened (w.enrol answer) := by
  have enlisted := manned.enlist
  rw [enrol_eq]
  split
  · rename_i previous place
    refine retire_hands place enlisted ?_ answer
    obtain ⟨k, hk, -⟩ := manned.placed previous place
    obtain ⟨queue, same⟩ := w.enlist_eq
    rw [same]
    rintro ⟨⟩
    simp [crew] at hk
  · rename_i vacant
    simp only [vacant, reduceCtorEq, or_false] at enlisted
    refine ⟨trivial, ?_, ?_⟩
    · simpa using enlisted
    · simp [vacant]

theorem finishStart_hands (manned : w.Manned claimed opened)
    (result : Except StoreError (List String)) :
    w.Hands claimed (fun _ => False) opened (w.finishStart result) := by
  cases result with
  | ok zones =>
    have published : w.Around ((w.publishZones .catalog zones).2.report
        [.loaded (w.publishZones .catalog zones).1]) :=
      ⟨rfl, rfl, Nat.le_refl _, rfl, .refl _, rfl⟩
    exact .after published (enrol_hands (manned.around published) .none)
  | error cause =>
    have reported := w.around_report [.loadFailed cause]
    exact .after reported (enrol_hands (manned.around reported) (.storeFailure cause))

theorem around_gives {r : StoreRequest} {result : r.Result} {store : ScriptedStore}
    (gives : w.store.Gives r result store) : w.Around { w with store } :=
  ⟨rfl, rfl, Nat.le_refl _, rfl, gives.onward, rfl⟩

/-- The zones were read, or are to be waited for. -/
theorem continueStart_hands (manned : w.Manned claimed opened) (key : String)
    {r : Progress (Except StoreError (List String)) × World}
    (read : (∃ pending, r = (.suspended ⟨.members key, pending, .done⟩, w)) ∨
      ∃ result store, w.store.Gives (.members key) result store ∧
        r = (.finished result, { w with store })) :
    w.Hands claimed (fun _ => False) opened (continueStart r) := by
  rcases read with ⟨pending, rfl⟩ | ⟨result, store, gives, rfl⟩
  · exact hands_around manned (.refl w) ⟨key, pending, rfl⟩ (Standing.awaits_starting _)
  · have around := around_gives gives
    exact .after around (finishStart_hands (manned.around around) result)

theorem around_move {memory : MemoryStore} (move : w.store.memory.Move none memory) :
    w.Around { w with store := { w.store with memory } } :=
  ⟨rfl, rfl, Nat.le_refl _, rfl, .move move, rfl⟩

theorem beginStart_hands (manned : w.Manned claimed opened) :
    w.Hands claimed (fun _ => False) opened w.beginStart := by
  rw [beginStart]
  split
  · exact hands_around manned (w.around_report _) trivial (Standing.awaits_answered _)
  · have reported := w.around_report w.catalog.plan.2
    exact .after reported (continueStart_hands (manned.around reported) _ (run_gives _ id _))

theorem beginShutdown_hands (manned : w.Manned claimed opened) :
    w.Hands claimed (fun _ => False) opened w.beginShutdown := by
  rw [beginShutdown, Catalog.uninstall]
  cases place : w.catalog.refresher with
  | some previous => exact retire_hands place (place ▸ manned.vacate) (by simp) .done
  | none =>
    refine hands_around manned ?_ trivial (Standing.awaits_answered _)
    exact ⟨place.symm, rfl, Nat.le_refl _, rfl, .refl _, rfl⟩

theorem begin_hands (manned : w.Manned claimed opened) {step : Step}
    (asks : step = .start ∨ step = .shutdown) :
    w.Hands claimed (fun _ => False) opened (w.begin step) := by
  rcases asks with rfl | rfl
  · exact beginStart_hands manned
  · exact beginShutdown_hands manned

theorem proceed_hands {activity : Activity} (minds : activity.Minds)
    (manned : w.Manned (fun n => claimed n ∨ (Standing.waiting activity).Awaits n) opened) :
    w.Hands claimed (Standing.waiting activity).Awaits opened (w.proceed activity) := by
  cases activity with
  | starting work =>
    rw [Standing.awaits_starting] at manned ⊢
    simp only [or_false] at manned
    obtain ⟨key, pending, rfl⟩ := minds
    refine continueStart_hands manned key ?_
    by_cases due : w.isDue ⟨.members key, pending, Program.done⟩
    · exact .inr (resume_gives _ id due)
    · exact .inl ⟨pending, if_neg due⟩
  | stopping previous answer =>
    rw [Standing.awaits_stopping] at manned ⊢
    exact awaitEnd_hands manned answer
  | _ => exact minds.elim

end World

/-! Calls. -/

namespace Call

variable {c : Call} {w : World} {n : Nat} {claimed waited : Nat → Prop}
  {opened : Nat → FeedId → Prop}

/-- A call that starts or stops the catalog, and is not given up. -/
structure Minds (c : Call) : Prop where
  asks : c.step = .start ∨ c.step = .shutdown
  cancelAfter : c.cancelAfter = none
  cancelAt : c.cancelAt = none
  waits : ∀ activity, c.state = .active activity → activity.Minds

/-- A call has begun and is not over. -/
def IsUnderway (c : Call) : Prop := ∃ activity, c.state = .active activity

theorem none_underway {calls : List Call} (ended : calls.all (·.answer?.isSome) = true) :
    ∀ c ∈ calls, ¬ c.IsUnderway := by
  intro c hc ⟨activity, waits⟩
  have answered := List.all_eq_true.1 ended c hc
  simp [answer?, waits] at answered

/-- A call waits for the end of a refresher. -/
def Awaits (c : Call) (n : Nat) : Prop := ∃ answer, c.state = .active (.stopping n answer)

/-- A call has moved on behalf of the catalog. -/
structure Hands (claimed waited : Nat → Prop) (opened : Nat → FeedId → Prop) (w : World)
    (r : Call × World) : Prop where
  minds : r.1.Minds
  manned : r.2.Manned (fun n => claimed n ∨ r.1.Awaits n) opened
  ends : ∀ n, waited n ∨ w.catalog.refresher = some n ∧ r.2.catalog.refresher ≠ some n →
    r.1.Awaits n ∨ (∃ answer, r.1.state = .over answer) ∧ r.2.Ended opened n

theorem settle_hands {r : Standing × World} (minds : c.Minds)
    (hands : w.Hands claimed waited opened r) :
    Hands claimed waited opened w (c.settle r) := by
  obtain ⟨kept, manned, ends⟩ := hands
  obtain ⟨answer | activity, v⟩ := r
  · refine ⟨⟨minds.asks, minds.cancelAfter, minds.cancelAt, by simp [settle]⟩, ?_, ?_⟩
    · simpa [settle, Awaits, Standing.Awaits] using manned
    · intro n waits
      exact .inr ⟨⟨answer, rfl⟩, ((ends n waits).resolve_left (by simp [Standing.Awaits])).2⟩
  · have patient : ¬ c.isExpired v.millis := by simp [isExpired, minds.cancelAt]
    rw [settle_active patient]
    have awaits (n : Nat) : Awaits { c with state := .active activity } n ↔
        (Standing.waiting activity).Awaits n := by
      simp [Awaits, Standing.Awaits]
    refine ⟨⟨minds.asks, minds.cancelAfter, minds.cancelAt, ?_⟩, ?_, ?_⟩
    · rintro _ ⟨⟩
      exact kept
    · simpa only [awaits] using manned
    · intro n waits
      rcases ends n waits with still | ⟨⟨_, answered⟩, _⟩
      · exact .inl ((awaits n).2 still)
      · cases answered

/-- Whatever a call does, each refresher that it waited for or that lost its place by it is waited
for, or has come to its end. -/
theorem move_hands (minds : c.Minds)
    (manned : w.Manned (fun n => claimed n ∨ c.Awaits n) opened) :
    Hands claimed c.Awaits opened w (c.move w) := by
  by_cases ready : c.isReady w
  · match hs : c.state with
    | .over answer => simp [isReady, hs] at ready
    | .delayed due =>
      have moved : c.move w = { c with cancelAt := c.cancelAfter.map (w.millis + ·) }.settle
          (w.begin c.step) := by simp [move, ready, hs]
      have awaits : c.Awaits = fun _ => False := by
        funext n
        simp [Awaits, hs]
      rw [moved, awaits]
      simp only [awaits, or_false] at manned
      have begun := World.begin_hands manned minds.asks
      refine settle_hands ⟨minds.asks, minds.cancelAfter, ?_, ?_⟩ begun
      · simp [minds.cancelAfter]
      · simp [hs]
    | .active activity =>
      have moved : c.move w = c.settle (w.proceed activity) := by simp [move, ready, hs]
      have awaits : c.Awaits = (Standing.waiting activity).Awaits := by
        funext n
        simp [Awaits, Standing.Awaits, hs]
      rw [moved, awaits]
      rw [awaits] at manned
      exact settle_hands minds (World.proceed_hands (minds.waits activity hs) manned)
  · have still : c.move w = (c, w) := by simp [move, ready]
    rw [still]
    refine ⟨minds, manned, fun n waits => .inl (waits.resolve_right ?_)⟩
    exact fun lost => lost.2 lost.1

end Call

end ZoneCatalog
